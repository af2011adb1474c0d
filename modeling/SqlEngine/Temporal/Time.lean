import SqlEngine.Text.Blank
import SqlEngine.Text.Number
import SqlEngine.Text.Split
import SqlEngine.ValueError

/-!
# Times of day

Hour, minute, second and nanosecond, written `HH:MM:SS` with a fraction where there is one.
-/

namespace SqlEngine

structure TimeOfDay where
  hour : Nat
  minute : Nat
  second : Nat
  nanosecond : Nat
  hour_lt : hour < 24
  minute_lt : minute < 60
  second_lt : second < 60
  nanosecond_lt : nanosecond < 1000000000
deriving DecidableEq

namespace TimeOfDay

def midnight : TimeOfDay := ⟨0, 0, 0, 0, by decide, by decide, by decide, by decide⟩

def clockChars (hour minute second : Nat) : List Char :=
  let two (n : Nat) := Text.padLeft '0' 2 (Text.natDigits n)
  two hour ++ ':' :: two minute ++ ':' :: two second

def fractionChars (nanosecond : Nat) : List Char :=
  '.' :: Text.padLeft '0' 9 (Text.natDigits nanosecond)

/-- Zeros at the end of the fraction are left out, and a zero fraction with its point. -/
def chars (t : TimeOfDay) : List Char :=
  clockChars t.hour t.minute t.second ++
    if t.nanosecond = 0 then [] else Text.dropTail (· == '0') (fractionChars t.nanosecond)

def text (t : TimeOfDay) : String := String.ofList t.chars

def ofParts? (hour minute second nanosecond : Nat) : Option TimeOfDay :=
  if h : hour < 24 ∧ minute < 60 ∧ second < 60 ∧ nanosecond < 1000000000 then
    some ⟨hour, minute, second, nanosecond, h.1, h.2.1, h.2.2.1, h.2.2.2⟩
  else none

def ofParts (hour minute second nanosecond : Nat) : Except ValueError TimeOfDay :=
  match ofParts? hour minute second nanosecond with
  | some t => .ok t
  | none => .error (.malformed .time
      (String.ofList (clockChars hour minute second ++ fractionChars nanosecond)))

/-- Hour and minute, and a second where it is written. -/
def readClock? (cs : List Char) : Option (Nat × Nat × Nat) := do
  match Text.splitAll ':' cs with
  | [h, m] => return (← Text.readUnsignedBelow? 256 h, ← Text.readUnsignedBelow? 256 m, 0)
  | [h, m, s] =>
    return (← Text.readUnsignedBelow? 256 h, ← Text.readUnsignedBelow? 256 m,
      ← Text.readUnsignedBelow? 256 s)
  | _ => none

/-- Nanoseconds from one to nine characters behind the point. -/
def readFraction? (cs : List Char) : Option Nat :=
  if cs = [] || 9 < cs.length then none else Text.readUnsigned? (Text.padRight '0' 9 cs)

def ofChars? (cs : List Char) : Option TimeOfDay := do
  let cs := Text.trim cs
  let (clock, nanosecond) ← match Text.splitOnce? '.' cs with
    | none => some (cs, 0)
    | some (clock, fraction) => (readFraction? fraction).map fun n => (clock, n)
  let (h, m, s) ← readClock? clock
  ofParts? h m s nanosecond

def ofText (s : String) : Except ValueError TimeOfDay :=
  match ofChars? s.toList with
  | some t => .ok t
  | none => .error (.malformed .time s)

/-- Nanoseconds since midnight. -/
def rank (t : TimeOfDay) : Nat :=
  ((t.hour * 60 + t.minute) * 60 + t.second) * 1000000000 + t.nanosecond

theorem rank_lt (t : TimeOfDay) : t.rank < 86400 * 1000000000 := by
  have := t.hour_lt
  have := t.minute_lt
  have := t.second_lt
  have := t.nanosecond_lt
  simp only [rank]
  omega

def compare (a b : TimeOfDay) : Ordering := Ord.compare a.rank b.rank

theorem eq_of_rank_eq {a b : TimeOfDay} (h : a.rank = b.rank) : a = b := by
  obtain ⟨x, y, z, n, _, _, _, _⟩ := a
  obtain ⟨x', y', z', n', _, _, _, _⟩ := b
  simp only [rank] at h
  simp only [mk.injEq]
  omega

example : (ofChars? "14:30:05.120".toList).map chars = some "14:30:05.12".toList := by decide +kernel
example : (ofChars? "08:15".toList).map chars = some "08:15:00".toList := by decide +kernel
example : (ofChars? "25:00:00".toList) = none := by decide +kernel

end TimeOfDay

end SqlEngine
