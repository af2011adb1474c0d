/-!
# Cutting and filling up text

Text cut at a separator character, and text filled up to a width.
-/

namespace SqlEngine.Text

/-- The parts before and after the first `sep`. -/
def splitOnce? (sep : Char) : List Char → Option (List Char × List Char)
  | [] => none
  | c :: r => if c = sep then some ([], r) else (splitOnce? sep r).map fun (a, b) => (c :: a, b)

/-- The parts are what stands before and after the first separator. -/
theorem splitOnce?_eq_some_iff {sep : Char} {cs a b : List Char} :
    splitOnce? sep cs = some (a, b) ↔ cs = a ++ sep :: b ∧ sep ∉ a := by
  induction cs generalizing a with
  | nil => simp [splitOnce?]
  | cons c r ih =>
    by_cases h : c = sep
    · subst h
      cases a with
      | nil => simp [splitOnce?, eq_comm]
      | cons x a => simp [splitOnce?]; rintro rfl _; simp
    · cases a with
      | nil => simp [splitOnce?, h]
      | cons x a =>
        simp only [splitOnce?, h, if_false, Option.map_eq_some_iff, Prod.exists, Prod.mk.injEq,
          List.cons.injEq, List.cons_append, List.mem_cons, not_or]
        constructor
        · rintro ⟨_, _, hr, ⟨rfl, rfl⟩, rfl⟩
          exact ⟨⟨rfl, (ih.1 hr).1⟩, Ne.symm h, (ih.1 hr).2⟩
        · rintro ⟨⟨rfl, hr⟩, _, hn⟩
          exact ⟨a, b, ih.2 ⟨hr, hn⟩, ⟨rfl, rfl⟩, rfl⟩

theorem splitOnce?_eq_none_iff {sep : Char} {cs : List Char} : splitOnce? sep cs = none ↔ sep ∉ cs := by
  induction cs with
  | nil => simp [splitOnce?]
  | cons c r ih =>
    by_cases h : c = sep
    · simp [splitOnce?, h]
    · simp [splitOnce?, h, ih, Ne.symm h]

/-- All parts between separators; there is always one more part than separators. -/
def splitAll (sep : Char) : List Char → List (List Char)
  | [] => [[]]
  | c :: r =>
    if c = sep then [] :: splitAll sep r
    else match splitAll sep r with
      | [] => [[c]]
      | p :: ps => (c :: p) :: ps

theorem splitAll_of_not_mem {sep : Char} {cs : List Char} (h : sep ∉ cs) : splitAll sep cs = [cs] := by
  induction cs with
  | nil => rfl
  | cons c r ih =>
    rw [List.mem_cons, not_or] at h
    rw [splitAll, if_neg (Ne.symm h.1), ih h.2]

theorem splitAll_append {sep : Char} {a : List Char} (b : List Char) (h : sep ∉ a) :
    splitAll sep (a ++ sep :: b) = a :: splitAll sep b := by
  induction a with
  | nil => rw [List.nil_append, splitAll, if_pos rfl]
  | cons c r ih =>
    rw [List.mem_cons, not_or] at h
    rw [List.cons_append, splitAll, if_neg (Ne.symm h.1), ih h.2]

/-- Either there is one part, or the first one ends at the first separator. -/
theorem splitAll_cases (sep : Char) (cs : List Char) : sep ∉ cs ∧ splitAll sep cs = [cs] ∨
    ∃ a b, cs = a ++ sep :: b ∧ sep ∉ a ∧ splitAll sep cs = a :: splitAll sep b := by
  cases first : splitOnce? sep cs with
  | none =>
    have absent := splitOnce?_eq_none_iff.1 first
    exact .inl ⟨absent, splitAll_of_not_mem absent⟩
  | some parts =>
    obtain ⟨rfl, absent⟩ := splitOnce?_eq_some_iff.1 first
    exact .inr ⟨parts.1, parts.2, rfl, absent, splitAll_append _ absent⟩

/-- The parts before and after the last `sep`. -/
def splitLast? (sep : Char) : List Char → Option (List Char × List Char)
  | [] => none
  | c :: r => match splitLast? sep r with
    | some (a, b) => some (c :: a, b)
    | none => if c = sep then some ([], r) else none

theorem splitLast?_eq_none_iff {sep : Char} {cs : List Char} : splitLast? sep cs = none ↔ sep ∉ cs := by
  induction cs with
  | nil => simp [splitLast?]
  | cons c r ih =>
    cases rest : splitLast? sep r with
    | none => simp [splitLast?, rest, ih.1 rest, eq_comm]
    | some parts =>
      have later : sep ∈ r := Decidable.byContradiction fun absent => nomatch rest.symm.trans (ih.2 absent)
      simp [splitLast?, rest, later]

/-- The parts are what stands before and after the last separator. -/
theorem splitLast?_eq_some_iff {sep : Char} {cs a b : List Char} :
    splitLast? sep cs = some (a, b) ↔ cs = a ++ sep :: b ∧ sep ∉ b := by
  induction cs generalizing a with
  | nil => simp [splitLast?]
  | cons c r ih =>
    constructor
    · intro split
      rw [splitLast?] at split
      cases rest : splitLast? sep r with
      | some parts =>
        rw [rest] at split
        cases split
        obtain ⟨rfl, last⟩ := ih.1 rest
        exact ⟨rfl, last⟩
      | none =>
        rw [rest] at split
        by_cases same : c = sep
        · rw [if_pos same] at split
          cases split
          exact ⟨by rw [same, List.nil_append], splitLast?_eq_none_iff.1 rest⟩
        · rw [if_neg same] at split
          cases split
    · rintro ⟨parts, last⟩
      cases a with
      | nil =>
        obtain ⟨rfl, rfl⟩ := List.cons_eq_cons.1 parts
        rw [splitLast?, splitLast?_eq_none_iff.2 last, if_pos rfl]
      | cons x a =>
        obtain ⟨rfl, rest⟩ := List.cons_eq_cons.1 parts
        rw [splitLast?, ih.2 ⟨rest, last⟩]

/-- Fills up with `c` on the left to at least `width` characters. -/
def padLeft (c : Char) (width : Nat) (cs : List Char) : List Char :=
  List.replicate (width - cs.length) c ++ cs

/-- Fills up with `c` on the right to at least `width` characters. -/
def padRight (c : Char) (width : Nat) (cs : List Char) : List Char :=
  cs ++ List.replicate (width - cs.length) c

theorem length_padLeft (c : Char) (width : Nat) (cs : List Char) :
    (padLeft c width cs).length = max width cs.length := by
  simp only [padLeft, List.length_append, List.length_replicate]; omega

theorem length_padRight (c : Char) (width : Nat) (cs : List Char) :
    (padRight c width cs).length = max width cs.length := by
  simp only [padRight, List.length_append, List.length_replicate]; omega

example : splitAll ':' "8::15".toList = ["8".toList, [], "15".toList] := by decide
example : splitLast? '.' "a.b.c".toList = some ("a.b".toList, "c".toList) := by decide

end SqlEngine.Text
