/-!
# White space

The white space of Unicode, trimming at both ends, and the words between white space. Everything
works on lists of characters; the functions on `String` only wrap them.
-/

namespace SqlEngine.Text

/-- The property White_Space: tab to carriage return, the space, and nineteen more. -/
def isBlank (c : Char) : Bool :=
  let n := c.toNat
  (9 ≤ n && n ≤ 13) || n == 0x20 || n == 0x85 || n == 0xA0 || n == 0x1680 ||
    (0x2000 ≤ n && n ≤ 0x200A) || n == 0x2028 || n == 0x2029 || n == 0x202F || n == 0x205F ||
    n == 0x3000

theorem isBlank_of_isWhitespace {c : Char} (h : c.isWhitespace = true) : isBlank c = true := by
  simp only [Char.isWhitespace, Bool.or_eq_true, decide_eq_true_eq] at h
  rcases h with ((rfl | rfl) | rfl) | rfl <;> decide

/-- Drops the longest tail whose characters all satisfy `p`. -/
def dropTail (p : Char → Bool) : List Char → List Char
  | [] => []
  | c :: r => match dropTail p r with
    | [] => if p c then [] else [c]
    | t => c :: t

theorem dropTail_of_all {p : Char → Bool} {cs : List Char} (h : ∀ c ∈ cs, p c = true) :
    dropTail p cs = [] := by
  induction cs with
  | nil => rfl
  | cons c r ih =>
    rw [dropTail, ih fun d hd => h d (List.mem_cons_of_mem _ hd)]
    simp [h c List.mem_cons_self]

/-- A tail that may be dropped does not count. -/
theorem dropTail_append {p : Char → Bool} (xs : List Char) {ys : List Char}
    (h : ∀ c ∈ ys, p c = true) : dropTail p (xs ++ ys) = dropTail p xs := by
  induction xs with
  | nil => exact dropTail_of_all h
  | cons c r ih => simp only [List.cons_append, dropTail, ih]

/-- A character that must stay holds everything before it. -/
theorem dropTail_concat {p : Char → Bool} (xs : List Char) {c : Char} (h : p c = false) :
    dropTail p (xs ++ [c]) = xs ++ [c] := by
  induction xs with
  | nil => simp [dropTail, h]
  | cons d r ih =>
    rw [List.cons_append, dropTail, ih]
    cases r <;> rfl

def trim (cs : List Char) : List Char := dropTail isBlank (cs.dropWhile isBlank)

/-- White space around a text that neither starts nor ends with any is taken off. -/
theorem trim_append {before cs after : List Char} (hb : ∀ c ∈ before, isBlank c = true)
    (ha : ∀ c ∈ after, isBlank c = true) (first : ∀ c, cs.head? = some c → isBlank c = false)
    (last : ∀ c, cs.getLast? = some c → isBlank c = false) : trim (before ++ cs ++ after) = cs := by
  rw [trim, List.append_assoc, List.dropWhile_append_of_pos hb]
  cases cs with
  | nil =>
    rw [List.nil_append]
    exact dropTail_of_all fun c hc => ha c ((List.dropWhile_sublist _).mem hc)
  | cons c r =>
    have kept : (c :: r ++ after).dropWhile isBlank = c :: r ++ after := by
      rw [List.cons_append, List.dropWhile_cons_of_neg (by simp [first c rfl])]
    have whole := List.dropLast_concat_getLast (List.cons_ne_nil c r)
    rw [kept, dropTail_append _ ha, ← whole]
    exact dropTail_concat _ (last _ (List.getLast?_eq_some_getLast (List.cons_ne_nil c r)))

theorem trim_of_ends {cs : List Char} (first : ∀ c, cs.head? = some c → isBlank c = false)
    (last : ∀ c, cs.getLast? = some c → isBlank c = false) : trim cs = cs := by
  have alone : trim ([] ++ cs ++ []) = cs := trim_append nofun nofun first last
  rwa [List.nil_append, List.append_nil] at alone

def strip (s : String) : String := String.ofList (trim s.toList)

/-- Runs of characters that are not white space. -/
def words : List Char → List (List Char)
  | [] => []
  | c :: r =>
    if isBlank c then words r
    else match r with
      | [] => [[c]]
      | d :: _ =>
        if isBlank d then [c] :: words r
        else match words r with
          | [] => [[c]]
          | w :: ws => (c :: w) :: ws

/-- Words joined by single spaces. -/
def squeeze (s : String) : String :=
  String.ofList ((words s.toList).intersperse [' ']).flatten

/-- Characters without white space among them. -/
structure IsWord (w : List Char) : Prop where
  nonempty : w ≠ []
  dense : ∀ c ∈ w, isBlank c = false

theorem IsWord.cons {c : Char} {w : List Char} (h : ¬ isBlank c = true) (rest : ∀ d ∈ w, isBlank d = false) :
    IsWord (c :: w) :=
  ⟨List.cons_ne_nil c w, List.forall_mem_cons.2 ⟨Bool.eq_false_iff.2 h, rest⟩⟩

theorem words_of_blank {c : Char} (cs : List Char) (h : isBlank c = true) : words (c :: cs) = words cs := by
  rw [words.eq_def]
  exact if_pos h

theorem isWord_of_mem_words {w cs : List Char} (h : w ∈ words cs) : IsWord w := by
  fun_induction words cs generalizing w with
  | case1 => cases h
  | case2 c r blank ih => exact ih h
  | case3 c dense =>
    obtain rfl := List.mem_singleton.1 h
    exact .cons dense nofun
  | case4 c dense d r blank ih =>
    rcases List.mem_cons.1 h with rfl | h
    · exact .cons dense nofun
    · exact ih h
  | case5 c dense d r' dense' absent ih =>
    rw [absent] at h
    obtain rfl := List.mem_singleton.1 h
    exact .cons dense nofun
  | case6 c dense d r' dense' v vs found ih =>
    rw [found] at h ih
    rcases List.mem_cons.1 h with rfl | h
    · exact .cons dense (ih List.mem_cons_self).dense
    · exact ih (List.mem_cons_of_mem v h)

/-- A word ends with the text or with white space, and what stands behind that is read on its own. -/
theorem words_append {w : List Char} (word : IsWord w) (rest : List Char)
    (ends : ∀ c, rest.head? = some c → isBlank c = true) : words (w ++ rest) = w :: words rest := by
  obtain ⟨nonempty, dense⟩ := word
  induction w with
  | nil => exact absurd rfl nonempty
  | cons c r ih =>
    obtain ⟨here, behind⟩ := List.forall_mem_cons.1 dense
    cases r with
    | nil =>
      rw [List.cons_append, List.nil_append, words.eq_def]
      cases rest with
      | nil =>
        simp only [here, Bool.false_eq_true, if_false]
        rfl
      | cons b rest => simp only [here, ends b rfl, Bool.false_eq_true, if_false, if_true]
    | cons d r =>
      have second := behind d List.mem_cons_self
      have next : words (d :: (r ++ rest)) = (d :: r) :: words rest := ih (List.cons_ne_nil d r) behind
      rw [List.cons_append, List.cons_append, words.eq_def]
      simp only [here, second, Bool.false_eq_true, if_false, next]

/-- Words with single spaces between them are read back. -/
theorem words_joined {ws : List (List Char)} (h : ∀ w ∈ ws, IsWord w) : words (ws.intersperse [' ']).flatten = ws := by
  induction ws with
  | nil => rfl
  | cons w ws ih =>
    obtain ⟨word, others⟩ := List.forall_mem_cons.1 h
    cases ws with
    | nil =>
      have alone := words_append word [] nofun
      rw [List.append_nil] at alone
      rwa [List.intersperse_singleton, List.flatten_cons, List.flatten_nil, List.append_nil]
    | cons v vs =>
      have parts :
          ((w :: v :: vs).intersperse [' ']).flatten = w ++ ' ' :: ((v :: vs).intersperse [' ']).flatten := rfl
      have space : isBlank ' ' = true := by decide
      rw [parts, words_append word _ (by rintro _ ⟨⟩; exact space), words_of_blank _ space, ih others]

/-- What is left of a text tells its words, and no more. -/
theorem squeeze_eq_iff {s t : String} : squeeze s = squeeze t ↔ words s.toList = words t.toList := by
  constructor
  · intro same
    have joined := String.ofList_injective same
    have read := congrArg words joined
    rwa [words_joined fun w => isWord_of_mem_words, words_joined fun w => isWord_of_mem_words] at read
  · intro same
    rw [squeeze, squeeze, same]

example : trim " \t a b\u3000".toList = "a b".toList := by decide
example : words "  a  bc ".toList = ["a".toList, "bc".toList] := by decide

end SqlEngine.Text
