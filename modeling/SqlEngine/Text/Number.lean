/-!
# Whole numbers and truth values in text

Reading and writing decimal integers: digits are ASCII, at least one is needed, and a sign is allowed
where the kind of number has one.
-/

namespace SqlEngine.Text

def digitValue? (c : Char) : Option Nat :=
  if '0' ≤ c && c ≤ '9' then some (c.toNat - 48) else none

/-- The number that digits denote after the digits of `acc`; nothing else is allowed. -/
def readDigits? (acc : Nat) : List Char → Option Nat
  | [] => some acc
  | c :: r => do readDigits? (10 * acc + (← digitValue? c)) r

/-- One or more digits. -/
def readNat? : List Char → Option Nat
  | [] => none
  | cs => readDigits? 0 cs

/-- Digits after an optional plus sign. -/
def readUnsigned? : List Char → Option Nat
  | '+' :: r => readNat? r
  | cs => readNat? cs

/-- Digits after an optional sign. -/
def readSigned? : List Char → Option Int
  | '-' :: r => (readNat? r).map fun n => -(n : Int)
  | '+' :: r => (readNat? r).map fun n => (n : Int)
  | cs => (readNat? cs).map fun n => (n : Int)

def readUnsignedBelow? (bound : Nat) (cs : List Char) : Option Nat :=
  (readUnsigned? cs).filter (· < bound)

/-- A signed number from `-bound` to `bound - 1`. -/
def readSignedWithin? (bound : Nat) (cs : List Char) : Option Int :=
  (readSigned? cs).filter fun n => -(bound : Int) ≤ n && n < bound

def digitChar (n : Nat) : Char := Char.ofNat (48 + n)

/-- Decimal digits without leading zeros; zero is one digit. -/
def natDigits (n : Nat) : List Char :=
  if n < 10 then [digitChar n] else natDigits (n / 10) ++ [digitChar (n % 10)]

theorem digitValue?_digitChar {n : Nat} (h : n < 10) : digitValue? (digitChar n) = some n := by
  have all : ∀ m : Fin 10, digitValue? (digitChar m.val) = some m.val := by decide
  exact all ⟨n, h⟩

theorem readDigits?_append (acc : Nat) (xs ys : List Char) :
    readDigits? acc (xs ++ ys) = (readDigits? acc xs).bind fun n => readDigits? n ys := by
  induction xs generalizing acc with
  | nil => rfl
  | cons c r ih =>
    simp only [List.cons_append, readDigits?]
    cases digitValue? c with
    | none => rfl
    | some d => exact ih _

/-- Zeros behind digits multiply their number by powers of ten. -/
theorem readDigits?_zeros (acc k : Nat) : readDigits? acc (List.replicate k '0') = some (acc * Nat.pow 10 k) := by
  induction k generalizing acc with
  | zero => rw [List.replicate_zero, readDigits?, Nat.pow_eq, Nat.pow_zero, Nat.mul_one]
  | succ k ih =>
    have zero : digitValue? '0' = some 0 := by decide
    simp only [List.replicate_succ, readDigits?, zero, bind, Option.bind, ih, Nat.add_zero]
    rw [Nat.pow_eq, Nat.pow_eq, Nat.pow_succ', Nat.mul_comm 10 acc, Nat.mul_assoc]

/-- Written digits denote the number that they were written for. -/
theorem readDigits?_natDigits (n : Nat) : readDigits? 0 (natDigits n) = some n := by
  fun_induction natDigits n with
  | case1 n h => simp [readDigits?, digitValue?_digitChar h]
  | case2 n h ih =>
    have last : digitValue? (digitChar (n % 10)) = some (n % 10) :=
      digitValue?_digitChar (Nat.mod_lt _ (by decide))
    simp only [readDigits?_append, ih, Option.bind_some, readDigits?, last]
    simp only [bind, Option.bind, Option.some.injEq]
    omega

theorem natDigits_ne_nil (n : Nat) : natDigits n ≠ [] := by
  unfold natDigits
  split <;> simp

theorem readNat?_natDigits (n : Nat) : readNat? (natDigits n) = some n := by
  rw [← readDigits?_natDigits n]
  cases h : natDigits n with
  | nil => exact absurd h (natDigits_ne_nil n)
  | cons c r => rfl

/-- Numbers of at most `k` digits are those below ten to the power of `k`. -/
theorem length_natDigits_le_iff {n k : Nat} (positive : 0 < k) : (natDigits n).length ≤ k ↔ n < Nat.pow 10 k := by
  fun_induction natDigits n generalizing k with
  | case1 n h =>
    have least : Nat.pow 10 1 ≤ Nat.pow 10 k := Nat.pow_le_pow_right (by decide) positive
    exact iff_of_true positive (Nat.lt_of_lt_of_le h least)
  | case2 n h ih =>
    have some := List.length_pos_iff.2 (natDigits_ne_nil (n / 10))
    rw [List.length_append, List.length_singleton]
    cases k with
    | zero => cases positive
    | succ k =>
      rw [Nat.add_le_add_iff_right]
      cases k with
      | zero => exact iff_of_false (by omega) h
      | succ k =>
        rw [ih (Nat.succ_pos k), Nat.div_lt_iff_lt_mul (by decide)]
        rfl

def natText (n : Nat) : String := String.ofList (natDigits n)

def intDigits (n : Int) : List Char :=
  if n < 0 then '-' :: natDigits n.natAbs else natDigits n.natAbs

def intText (n : Int) : String := String.ofList (intDigits n)

/-- How many decimal digits `n` has; zero has one. -/
def digitCount (n : Nat) : Nat := (natDigits n).length

def boolText (b : Bool) : String := if b then "true" else "false"

example : readSignedWithin? 128 "-128".toList = some (-128) := by decide
example : readUnsignedBelow? 256 "256".toList = none := by decide
example : readSigned? "+".toList = none := by decide

end SqlEngine.Text
