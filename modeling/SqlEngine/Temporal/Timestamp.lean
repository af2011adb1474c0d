import SqlEngine.Temporal.Date
import SqlEngine.Temporal.Time

/-!
# Timestamps

A date with a time of day, without a zone.
-/

namespace SqlEngine

structure Timestamp where
  date : Date
  time : TimeOfDay
deriving DecidableEq

namespace Timestamp

def atMidnight (date : Date) : Timestamp := ⟨date, .midnight⟩

def chars (t : Timestamp) : List Char := t.date.chars ++ ' ' :: t.time.chars

def text (t : Timestamp) : String := String.ofList t.chars

/-- One `Z` at the end says nothing. -/
def dropZone (cs : List Char) : List Char :=
  match cs.getLast? with
  | some c => if c = 'Z' || c = 'z' then cs.dropLast else cs
  | none => cs

/-- A date and a time around the first `T`, or around the first space where there is no `T`; a date
alone means midnight. -/
def ofChars? (cs : List Char) : Option Timestamp :=
  let cs := dropZone (Text.trim cs)
  match (Text.splitOnce? 'T' cs).or (Text.splitOnce? ' ' cs) with
  | some (date, time) => do return ⟨← Date.ofChars? date, ← TimeOfDay.ofChars? time⟩
  | none => (Date.ofChars? cs).map atMidnight

def ofText (s : String) : Except ValueError Timestamp :=
  match ofChars? s.toList with
  | some t => .ok t
  | none => .error (.malformed .timestamp s)

def rank (t : Timestamp) : Int := t.date.rank * (86400 * 1000000000) + t.time.rank

def compare (a b : Timestamp) : Ordering := Ord.compare a.rank b.rank

example : (ofChars? "2024-03-01T10:00:00Z".toList).map chars = some "2024-03-01 10:00:00".toList := by
  decide +kernel
example : (ofChars? "2024-03-01".toList).map chars = some "2024-03-01 00:00:00".toList := by
  decide +kernel

end Timestamp

end SqlEngine
