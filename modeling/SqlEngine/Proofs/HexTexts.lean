import Mathlib.Data.List.Basic
import SqlEngine.Proofs.Outcomes
import SqlEngine.Value.Convert

/-!
# Hexadecimal texts of bytes

Text is read in slices of two bytes of its UTF-8 encoding, each of them like any number in base sixteen. No slice
cuts through a character, and those that are read are pairs of characters: two digits, or a plus sign and a digit.
-/

namespace SqlEngine

namespace Text

variable {c a b : Char} {cs r part before after : List Char} {n i j k : Nat} {bytes : List UInt8}

/-! ## Slices -/

/-- Length in bytes of UTF-8. -/
def byteLength : List Char → Nat
  | [] => 0
  | c :: r => c.utf8Size + byteLength r

/-- The text before and after so many bytes, unless they end inside a character or there are not so many. -/
def cutAt? : List Char → Nat → Option (List Char × List Char)
  | cs, 0 => some ([], cs)
  | [], _ + 1 => none
  | c :: r, n + 1 =>
    if c.utf8Size ≤ n + 1 then (cutAt? r (n + 1 - c.utf8Size)).map fun (a, b) => (c :: a, b) else none

/-- The text between two places counted in bytes, unless one of them lies inside a character or past the end. -/
def slice? (cs : List Char) (i j : Nat) : Option (List Char) := do
  let (_, rest) ← cutAt? cs i
  let (part, _) ← cutAt? rest (j - i)
  return part

def readHexDigits? (acc : Nat) : List Char → Option Nat
  | [] => some acc
  | c :: r => do readHexDigits? (16 * acc + (← hexValue? c)) r

/-- The byte that one or more digits denote in base sixteen, after an optional plus sign. -/
def readHexByte? (cs : List Char) : Option UInt8 :=
  let digits := match cs with
    | '+' :: r => r
    | cs => cs
  if digits = [] then none
  else (readHexDigits? 0 digits).bind fun n => if n < 256 then some (UInt8.ofNat n) else none

/-- The bytes of a text, slice by slice. -/
def decodeSlices? (cs : List Char) : Option (List UInt8) :=
  if byteLength cs % 2 = 1 then none
  else (List.range (byteLength cs / 2)).mapM fun k => (slice? cs (2 * k) (2 * k + 2)).bind readHexByte?

theorem byteLength_cons (c : Char) (r : List Char) : byteLength (c :: r) = c.utf8Size + byteLength r := rfl

theorem byteLength_pos (some : cs ≠ []) : 0 < byteLength cs := by
  obtain ⟨c, r, rfl⟩ := List.exists_cons_of_ne_nil some
  exact Nat.add_pos_left c.utf8Size_pos _

theorem cutAt?_eq_some_iff : cutAt? cs n = some (before, after) ↔ cs = before ++ after ∧ byteLength before = n := by
  fun_induction cutAt? cs n generalizing before with
  | case1 cs =>
    constructor
    · intro same
      cases same
      exact ⟨rfl, rfl⟩
    · rintro ⟨rfl, empty⟩
      cases before with
      | nil => rfl
      | cons c r => exact absurd empty (Nat.ne_of_gt (byteLength_pos (List.cons_ne_nil c r)))
  | case2 n =>
    refine iff_of_false nofun ?_
    rintro ⟨same, length⟩
    rw [(List.append_eq_nil_iff.1 same.symm).1] at length
    cases length
  | case3 c r n fits ih =>
    simp only [Option.map_eq_some_iff, Prod.exists, Prod.mk.injEq]
    constructor
    · rintro ⟨first, _, cut, rfl, rfl⟩
      obtain ⟨rfl, length⟩ := ih.1 cut
      exact ⟨rfl, by rw [byteLength_cons]; omega⟩
    · rintro ⟨same, length⟩
      cases before with
      | nil => cases length
      | cons d first =>
        obtain ⟨rfl, rfl⟩ := List.cons_eq_cons.1 same
        rw [byteLength_cons] at length
        exact ⟨first, after, ih.2 ⟨rfl, by omega⟩, rfl, rfl⟩
  | case4 c r n wide =>
    refine iff_of_false nofun ?_
    rintro ⟨same, length⟩
    cases before with
    | nil => cases length
    | cons d first =>
      obtain ⟨rfl, _⟩ := List.cons_eq_cons.1 same
      rw [byteLength_cons] at length
      omega

/-- A slice consists of whole characters. -/
theorem slice?_eq_some_iff : slice? cs i j = some part ↔
    ∃ before after, cs = before ++ part ++ after ∧ byteLength before = i ∧ byteLength part = j - i := by
  simp only [slice?, Option.bind_eq_bind, Option.bind_eq_some_iff, Prod.exists, Option.pure_def, Option.some.injEq,
    cutAt?_eq_some_iff]
  constructor
  · rintro ⟨before, _, ⟨rfl, start⟩, _, after, ⟨rfl, length⟩, rfl⟩
    exact ⟨before, after, (List.append_assoc ..).symm, start, length⟩
  · rintro ⟨before, after, rfl, start, length⟩
    exact ⟨before, part ++ after, ⟨List.append_assoc .., start⟩, part, after, ⟨rfl, length⟩, rfl⟩

/-! ## Digits -/

def hexChars : List Char := "0123456789abcdefABCDEF".toList

theorem mem_hexChars_of_hexValue? (value : hexValue? c = some n) : c ∈ hexChars ∧ n < 16 := by
  have digits : ∀ k : Fin 10, Char.ofNat (48 + k.val) ∈ hexChars := by decide
  have lower : ∀ k : Fin 6, Char.ofNat (97 + k.val) ∈ hexChars := by decide
  have upper : ∀ k : Fin 6, Char.ofNat (65 + k.val) ∈ hexChars := by decide
  have within {least most : Char} (inside : (least ≤ c && c ≤ most) = true) :
      least.toNat ≤ c.toNat ∧ c.toNat ≤ most.toNat := by
    obtain ⟨low, high⟩ := Bool.and_eq_true_iff.1 inside
    exact ⟨of_decide_eq_true low, of_decide_eq_true high⟩
  have same {k : Nat} (least : k ≤ c.toNat) : Char.ofNat (k + (c.toNat - k)) = c := by
    rw [Nat.add_sub_cancel' least, Char.ofNat_toNat]
  unfold hexValue? at value
  split at value
  · next inside =>
    obtain ⟨low, high⟩ : 48 ≤ c.toNat ∧ c.toNat ≤ 57 := within inside
    cases value
    exact ⟨same low ▸ digits ⟨c.toNat - 48, by omega⟩, by omega⟩
  split at value
  · next inside =>
    obtain ⟨low, high⟩ : 97 ≤ c.toNat ∧ c.toNat ≤ 102 := within inside
    cases value
    exact ⟨same low ▸ lower ⟨c.toNat - 97, by omega⟩, by omega⟩
  split at value
  · next inside =>
    obtain ⟨low, high⟩ : 65 ≤ c.toNat ∧ c.toNat ≤ 70 := within inside
    cases value
    exact ⟨same low ▸ upper ⟨c.toNat - 65, by omega⟩, by omega⟩
  · cases value

/-- A character as it is written back: in lower case, and a zero for a plus sign. -/
def writtenBack (c : Char) : Char := if c = '+' then '0' else lowerAscii c

theorem hexPair?_writtenBack (first : a ∈ '+' :: hexChars) (second : b ∈ hexChars) :
    (hexPair? a b).map hexByte = some [writtenBack a, writtenBack b] := by
  have all : (('+' :: hexChars).all fun a => hexChars.all fun b =>
      (hexPair? a b).map hexByte == some [writtenBack a, writtenBack b]) = true := by decide +kernel
  exact eq_of_beq (List.all_eq_true.1 (List.all_eq_true.1 all a first) b second)

theorem mem_of_hexPair? {byte : UInt8} (read : hexPair? a b = some byte) : a ∈ '+' :: hexChars ∧ b ∈ hexChars := by
  unfold hexPair? at read
  split at read
  · next first second => exact ⟨.tail _ (mem_hexChars_of_hexValue? first).1, (mem_hexChars_of_hexValue? second).1⟩
  · next second =>
    split at read
    · next plus => exact ⟨plus ▸ List.mem_cons_self, (mem_hexChars_of_hexValue? second).1⟩
    · cases read
  · cases read

/-- Pairs of characters: two digits, or a plus sign and a digit. -/
inductive Paired : List Char → Prop where
  | nil : Paired []
  | cons {a b : Char} {r : List Char} : a ∈ '+' :: hexChars → b ∈ hexChars → Paired r → Paired (a :: b :: r)

/-- An even number of hexadecimal digits. -/
def IsHex (cs : List Char) : Prop := cs.length % 2 = 0 ∧ ∀ c ∈ cs, c ∈ hexChars

theorem decodeHex?_of_paired (paired : Paired cs) :
    ∃ bytes, decodeHex? cs = some bytes ∧ encodeHex bytes = cs.map writtenBack := by
  induction paired with
  | nil => exact ⟨[], rfl, rfl⟩
  | @cons a b r first second _ ih =>
    obtain ⟨bytes, read, written⟩ := ih
    obtain ⟨byte, pair, digits⟩ := Option.map_eq_some_iff.1 (hexPair?_writtenBack first second)
    refine ⟨byte :: bytes, ?_, ?_⟩
    · rw [decodeHex?, pair, read]
      rfl
    · rw [encodeHex, List.flatMap_cons, digits, List.map_cons, List.map_cons, ← written]
      rfl

theorem paired_of_decodeHex? (read : decodeHex? cs = some bytes) : Paired cs := by
  fun_induction decodeHex? cs generalizing bytes with
  | case1 => exact .nil
  | case2 => cases read
  | case3 a b r ih =>
    obtain ⟨byte, pair, rest⟩ := Option.bind_eq_some_iff.1 read
    obtain ⟨bytes, tail, _⟩ := Option.bind_eq_some_iff.1 rest
    obtain ⟨first, second⟩ := mem_of_hexPair? pair
    exact .cons first second (ih tail)

theorem isHex_iff : IsHex cs ↔ Paired cs ∧ '+' ∉ cs := by
  constructor
  · rintro ⟨even, digits⟩
    have noSign : '+' ∉ cs := fun sign => absurd (digits _ sign) (by decide)
    refine ⟨?_, noSign⟩
    clear noSign
    fun_induction decodeHex? cs with
    | case1 => exact .nil
    | case2 => cases even
    | case3 a b r ih =>
      simp only [List.length_cons] at even
      have rest := ih (by omega) fun c later => digits c (.tail a (.tail b later))
      exact .cons (.tail _ (digits a List.mem_cons_self)) (digits b (.tail a List.mem_cons_self)) rest
  · rintro ⟨paired, noSign⟩
    induction paired with
    | nil => exact ⟨rfl, nofun⟩
    | @cons a b r first second _ ih =>
      simp only [List.mem_cons, not_or] at noSign
      obtain ⟨even, digits⟩ := ih noSign.2.2
      have first : a ∈ hexChars := (List.mem_cons.1 first).resolve_left (Ne.symm noSign.1)
      refine ⟨by simp only [List.length_cons]; omega, ?_⟩
      rw [List.forall_mem_cons, List.forall_mem_cons]
      exact ⟨first, second, digits⟩

/-! ## Pairs of characters for slices -/

theorem utf8Size_of_mem (h : c ∈ '+' :: hexChars) : c.utf8Size = 1 := by
  have all : (('+' :: hexChars).all fun c => c.utf8Size == 1) = true := by decide +kernel
  exact eq_of_beq (List.all_eq_true.1 all c h)

theorem hexPair?_of_wide (wide : ¬ (a.utf8Size = 1 ∧ b.utf8Size = 1)) : hexPair? a b = none := by
  cases read : hexPair? a b with
  | none => rfl
  | some byte =>
    obtain ⟨first, second⟩ := mem_of_hexPair? read
    exact absurd ⟨utf8Size_of_mem first, utf8Size_of_mem (.tail _ second)⟩ wide

theorem readHexByte?_plus (r : List Char) : readHexByte? ('+' :: r) =
    if r = [] then none else (readHexDigits? 0 r).bind fun n => if n < 256 then some (UInt8.ofNat n) else none :=
  rfl

theorem readHexByte?_bare (bare : a ≠ '+') (r : List Char) : readHexByte? (a :: r) =
    (readHexDigits? 0 (a :: r)).bind fun n => if n < 256 then some (UInt8.ofNat n) else none := by
  rw [readHexByte?]
  · exact if_neg (List.cons_ne_nil a r)
  · intro _ same
    exact bare (List.cons_eq_cons.1 same).1

theorem readHexByte?_pair (a b : Char) : readHexByte? [a, b] = hexPair? a b := by
  by_cases sign : a = '+'
  · have none : hexValue? '+' = none := by decide
    subst sign
    rw [readHexByte?_plus, if_neg (List.cons_ne_nil b []), readHexDigits?, hexPair?, none]
    cases second : hexValue? b with
    | none => rfl
    | some y =>
      have small := (mem_hexChars_of_hexValue? second).2
      simp [readHexDigits?, show y < 256 by omega]
  · rw [readHexByte?_bare sign, readHexDigits?, hexPair?]
    cases first : hexValue? a with
    | none => cases hexValue? b <;> simp [sign]
    | some x =>
      have small := (mem_hexChars_of_hexValue? first).2
      cases second : hexValue? b with
      | none => simp [readHexDigits?, second]
      | some y =>
        have small' := (mem_hexChars_of_hexValue? second).2
        simp [readHexDigits?, second, show 16 * x + y < 256 by omega]

/-- A character of two bytes is no digit. -/
theorem readHexByte?_wide (wide : a.utf8Size ≠ 1) : readHexByte? [a] = none := by
  have bare : a ≠ '+' := by
    rintro rfl
    exact wide (by decide)
  have none : hexValue? a = none := by
    cases value : hexValue? a with
    | none => rfl
    | some n => exact absurd (utf8Size_of_mem (.tail _ (mem_hexChars_of_hexValue? value).1)) wide
  rw [readHexByte?_bare bare, readHexDigits?, none]
  rfl

theorem slice?_zero (cs : List Char) : slice? cs 0 2 = (cutAt? cs 2).map Prod.fst := by
  rw [slice?, cutAt?]
  change ((cutAt? cs 2).bind fun (part, _) => some part) = _
  cases cutAt? cs 2 <;> rfl

/-- The first slice is the first pair, or it is not read. -/
theorem slice?_first (a b : Char) (r : List Char) : (slice? (a :: b :: r) 0 2).bind readHexByte? = hexPair? a b := by
  have aPos := a.utf8Size_pos
  have bPos := b.utf8Size_pos
  rw [slice?_zero, cutAt?]
  by_cases first : a.utf8Size = 1
  · by_cases second : b.utf8Size = 1
    · rw [if_pos (by omega), first, cutAt?, if_pos (by omega), second, cutAt?, ← readHexByte?_pair]
      rfl
    · rw [if_pos (by omega), first, cutAt?, if_neg (by omega), hexPair?_of_wide fun h => second h.2]
      rfl
  · rw [hexPair?_of_wide fun h => first h.1]
    split
    · have two : a.utf8Size = 2 := by omega
      rw [two, cutAt?]
      exact readHexByte?_wide first
    · rfl

theorem slice?_single (a : Char) : (slice? [a] 0 2).bind readHexByte? = none := by
  have aPos := a.utf8Size_pos
  rw [slice?_zero, cutAt?]
  by_cases first : a.utf8Size = 1
  · rw [if_pos (by omega), first, cutAt?]
    rfl
  · split
    · have two : a.utf8Size = 2 := by omega
      rw [two, cutAt?]
      exact readHexByte?_wide first
    · rfl

/-- Behind two characters of one byte each, the slices are those of the rest. -/
theorem slice?_shift (first : a.utf8Size = 1) (second : b.utf8Size = 1) (r : List Char) (i j : Nat) :
    slice? (a :: b :: r) (i + 2) (j + 2) = slice? r i j := by
  have cut : cutAt? (a :: b :: r) (i + 2) = (cutAt? r i).map fun (x, y) => (a :: b :: x, y) := by
    rw [cutAt?, if_pos (by omega), first, Nat.add_sub_cancel, cutAt?, if_pos (by omega), second, Nat.add_sub_cancel,
      Option.map_map]
    rfl
  rw [slice?, slice?, cut, Nat.add_sub_add_right]
  cases cutAt? r i <;> rfl

theorem decodeSlices?_of_first (some : cs ≠ []) (failed : (slice? cs 0 2).bind readHexByte? = none) :
    decodeSlices? cs = none := by
  have positive := byteLength_pos some
  unfold decodeSlices?
  split
  · rfl
  · obtain ⟨k, half⟩ : ∃ k, byteLength cs / 2 = k + 1 := Nat.exists_eq_succ_of_ne_zero (by omega)
    rw [half, List.range_succ_eq_map, List.mapM_cons, Nat.mul_zero, Nat.zero_add, failed]
    rfl

/-- Reading slices of the encoding is reading pairs of characters. -/
theorem decodeSlices?_eq (cs : List Char) : decodeSlices? cs = decodeHex? cs := by
  fun_induction decodeHex? cs with
  | case1 => rfl
  | case2 a => exact decodeSlices?_of_first (List.cons_ne_nil a []) (slice?_single a)
  | case3 a b r ih =>
    cases pair : hexPair? a b with
    | none => exact decodeSlices?_of_first (List.cons_ne_nil a _) ((slice?_first a b r).trans pair)
    | some byte =>
      obtain ⟨first, second⟩ := mem_of_hexPair? pair
      -- a pair that is read takes two bytes, so that all further slices move by one pair
      have first := utf8Size_of_mem first
      have second := utf8Size_of_mem (.tail _ second)
      have length : byteLength (a :: b :: r) = byteLength r + 2 := by
        rw [byteLength_cons, byteLength_cons, first, second]
        omega
      rw [← ih, decodeSlices?, decodeSlices?, length, Nat.add_mod_right]
      split
      · rfl
      · have half : (byteLength r + 2) / 2 = byteLength r / 2 + 1 := by omega
        have head := (slice?_first a b r).trans pair
        rw [half, List.range_succ_eq_map, List.mapM_cons, List.mapM_map, Nat.mul_zero, Nat.zero_add, head]
        have tail (k : Nat) : slice? (a :: b :: r) (2 * (k + 1)) (2 * (k + 1) + 2) = slice? r (2 * k) (2 * k + 2) :=
          slice?_shift first second r (2 * k) (2 * k + 2)
        simp only [Function.comp_def, Nat.succ_eq_add_one, tail]

/-- Without plus signs, what is written back is the text in lower case. -/
theorem map_writtenBack (noSign : '+' ∉ cs) : cs.map writtenBack = cs.map lowerAscii := by
  refine List.map_congr_left fun c listed => if_neg ?_
  rintro rfl
  exact noSign listed

end Text

namespace Value

variable {v w : Value} {s : String}

/-- Text becomes bytes as a run of hexadecimal digits, and comes back from them in lower case. -/
structure ReadsHex (v : Value) (s : String) : Prop where
  accepted : (∃ w, v.convert .varbinary = .ok w) ↔ Text.IsHex (Text.trim s.toList)
  written : ∀ w, v.convert .varbinary = .ok w →
    w.convert .anyVarchar = .ok (varchar (String.ofList ((Text.trim s.toList).map Text.lowerAscii)))
  refused : ¬ Text.IsHex (Text.trim s.toList) → v.convert .varbinary = .error (.malformed .binary s)

theorem convert_varbinary (text : v.string? = some s) :
    v.convert .varbinary = (orMalformed .binary s (Text.decodeHex? (Text.trim s.toList))).map varbinary := by
  cases v <;> cases text <;> rfl

theorem convert_varbinary_paired (text : v.string? = some s) (paired : Text.Paired (Text.trim s.toList)) :
    ∃ w, v.convert .varbinary = .ok w ∧
      w.convert .anyVarchar = .ok (varchar (String.ofList ((Text.trim s.toList).map Text.writtenBack))) := by
  obtain ⟨bytes, read, written⟩ := Text.decodeHex?_of_paired paired
  refine ⟨varbinary bytes, ?_, ?_⟩
  · rw [convert_varbinary text, read]
    rfl
  · rw [← written]
    rfl

theorem convert_varbinary_unpaired (text : v.string? = some s) (unpaired : ¬ Text.Paired (Text.trim s.toList)) :
    v.convert .varbinary = .error (.malformed .binary s) := by
  have unread : Text.decodeHex? (Text.trim s.toList) = none := by
    cases read : Text.decodeHex? (Text.trim s.toList) with
    | none => rfl
    | some bytes => exact absurd (Text.paired_of_decodeHex? read) unpaired
  rw [convert_varbinary text, unread]
  rfl

theorem convert_varbinary_ok_iff (text : v.string? = some s) :
    (∃ w, v.convert .varbinary = .ok w) ↔ Text.Paired (Text.trim s.toList) := by
  constructor
  · rintro ⟨w, converted⟩
    by_contra unpaired
    rw [convert_varbinary_unpaired text unpaired] at converted
    cases converted
  · intro paired
    obtain ⟨w, converted, _⟩ := convert_varbinary_paired text paired
    exact ⟨w, converted⟩

theorem readsHex_iff (text : v.string? = some s) :
    v.ReadsHex s ↔ ¬ (Text.Paired (Text.trim s.toList) ∧ '+' ∈ Text.trim s.toList) := by
  constructor
  · rintro reads ⟨paired, sign⟩
    have hex := reads.accepted.1 ((convert_varbinary_ok_iff text).2 paired)
    exact (Text.isHex_iff.1 hex).2 sign
  · intro unsigned
    have same : Text.Paired (Text.trim s.toList) ↔ Text.IsHex (Text.trim s.toList) := by
      rw [Text.isHex_iff]
      exact ⟨fun paired => ⟨paired, fun sign => unsigned ⟨paired, sign⟩⟩, And.left⟩
    refine ⟨(convert_varbinary_ok_iff text).trans same, fun w converted => ?_, fun other => ?_⟩
    · have paired := (convert_varbinary_ok_iff text).1 ⟨w, converted⟩
      obtain ⟨w', converted', written⟩ := convert_varbinary_paired text paired
      cases converted.symm.trans converted'
      rw [written, Text.map_writtenBack fun sign => unsigned ⟨paired, sign⟩]
    · exact convert_varbinary_unpaired text fun paired => other (same.1 paired)

/-- Text is read slice by slice, and each slice consists of whole characters. What is accepted are pairs of which the
first character may be a plus sign; a byte from such a pair is written back with a zero. So text is read as a run of
hexadecimal digits unless it is accepted and has a plus sign. -/
theorem hex_texts_read_iff (text : v.string? = some s) :
    v.convert .varbinary = (orMalformed .binary s (Text.decodeSlices? (Text.trim s.toList))).map varbinary ∧
      (∀ i j part, Text.slice? (Text.trim s.toList) i j = some part ↔
        ∃ before after, Text.trim s.toList = before ++ part ++ after ∧
          Text.byteLength before = i ∧ Text.byteLength part = j - i) ∧
      ((∃ w, v.convert .varbinary = .ok w) ↔ Text.Paired (Text.trim s.toList)) ∧
      (∀ w, v.convert .varbinary = .ok w →
        w.convert .anyVarchar = .ok (varchar (String.ofList ((Text.trim s.toList).map Text.writtenBack)))) ∧
      (v.ReadsHex s ↔ ¬ (Text.Paired (Text.trim s.toList) ∧ '+' ∈ Text.trim s.toList)) := by
  refine ⟨?_, fun _ _ _ => Text.slice?_eq_some_iff, convert_varbinary_ok_iff text, fun w converted => ?_,
    readsHex_iff text⟩
  · rw [Text.decodeSlices?_eq]
    exact convert_varbinary text
  · obtain ⟨w', converted', written⟩ := convert_varbinary_paired text ((convert_varbinary_ok_iff text).1 ⟨w, converted⟩)
    cases converted.symm.trans converted'
    exact written

/-- Digits of both cases between blanks. -/
theorem hex_texts_read_iff_upper :
    (varchar " 00fF ").string? = some " 00fF " ∧ (varchar " 00fF ").ReadsHex " 00fF " ∧
      (varchar " 00fF ").convert .varbinary = .ok (varbinary [0, 255]) := by
  have trimmed : Text.trim " 00fF ".toList = "00fF".toList := by decide +kernel
  refine ⟨rfl, (hex_texts_read_iff rfl).2.2.2.2.2 ?_, by rfl⟩
  rintro ⟨_, sign⟩
  rw [trimmed] at sign
  exact absurd sign (by decide)

/-- A plus sign and a digit are read, although they are not two digits. -/
theorem plus_sign_read_as_byte : ¬ ∀ (v : Value) (s : String), v.string? = some s → v.ReadsHex s := by
  intro all
  have hex := (all (varchar "+f") "+f" rfl).accepted.1 ⟨varbinary [15], rfl⟩
  exact (Text.isHex_iff.1 hex).2 (by decide +kernel)

end Value

end SqlEngine
