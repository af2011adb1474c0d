import Mathlib.Data.List.Induction
import SqlEngine.Compiler

/-!
# The cache of the compiler

For each class a compiler remembers what it compiled last. As long as no source is registered with two
methods, none of that shows: to compile a source is to look up the method that is registered for its words.
-/

namespace SqlEngine

theorem lookup_replaced {α β : Type} [DecidableEq α] (k a : α) (b : β) (entries : List (α × β)) :
    ((k, b) :: entries.filter (·.1 != k)).lookup a = if k = a then some b else entries.lookup a := by
  by_cases same : k = a
  · subst same
    rw [List.lookup_cons_self, if_pos rfl]
  · rw [if_neg same, List.lookup_cons, beq_false_of_ne (Ne.symm same)]
    dsimp only
    -- The entries that are filtered out are for `k`, so the lookup of `a` passes over them in either list.
    induction entries with
    | nil => rfl
    | cons entry rest ih =>
      obtain ⟨l, c⟩ := entry
      by_cases removed : l = k
      · subst removed
        rw [List.filter_cons_of_neg (by simp), ih, List.lookup_cons, beq_false_of_ne (Ne.symm same)]
      · rw [List.filter_cons_of_pos (by simpa using removed), List.lookup_cons, List.lookup_cons, ih]

/-- The texts differ in white space alone. -/
def SameWords (s t : String) : Prop := Text.words s.toList = Text.words t.toList

instance (s t : String) : Decidable (SameWords s t) := inferInstanceAs (Decidable (_ = _))

namespace Compiler

variable {c d : Compiler} {className className' source source' written : String} {m n : NativeMethod}

theorem normalize_eq_iff : normalize source = normalize source' ↔ SameWords source source' := Text.squeeze_eq_iff

theorem snippet?_register (c : Compiler) (written source : String) (m : NativeMethod) :
    (c.register written m).snippet? source = if SameWords written source then some m else c.snippet? source := by
  simp only [snippet?, register, lookup_replaced, normalize_eq_iff]

theorem cached?_remember (c : Compiler) (className className' written source : String) (m : NativeMethod) :
    (c.remember className written m).cached? className' source =
      if className = className' then if SameWords written source then some m else none
      else c.cached? className' source := by
  simp only [cached?, remember, lookup_replaced]
  by_cases same : className = className'
  · simp only [if_pos same, beq_iff_eq, normalize_eq_iff]
  · simp only [if_neg same]

/-- Without refusals a source comes from the cache, from the snippets, or from nowhere. -/
theorem compile_cases (unrefused : c.refusals = []) (className source : String) :
    (∃ m, c.cached? className source = some m ∧ c.compile className source = (.ok m, c)) ∨
      (∃ m, c.snippet? source = some m ∧ c.compile className source = (.ok m, c.remember className source m)) ∨
      (c.snippet? source = none ∧
        c.compile className source = (.error (.fault ("cannot compile " ++ className)), c)) := by
  rw [compile, unrefused]
  cases cached : c.cached? className source with
  | some m => exact .inl ⟨m, rfl, rfl⟩
  | none =>
    cases found : c.snippet? source with
    | some m => exact .inr (.inl ⟨m, rfl, rfl⟩)
    | none => exact .inr (.inr ⟨rfl, rfl⟩)

/-- What a compiler is asked to do. -/
inductive Request where
  | register (source : String) (m : NativeMethod)
  | compile (className source : String)

def serve (c : Compiler) : Request → Compiler
  | .register source m => c.register source m
  | .compile className source => (c.compile className source).2

/-- A compiler that starts out empty, after some requests. -/
def after (requests : List Request) : Compiler := requests.foldl serve {}

/-- Among the requests the method was registered for a source with these words. -/
def Registers (requests : List Request) (source : String) (m : NativeMethod) : Prop :=
  ∃ written, SameWords written source ∧ .register written m ∈ requests

variable {requests others : List Request}

def Request.registration? : Request → Option (String × NativeMethod)
  | .register source m => some (source, m)
  | .compile .. => none

theorem registers_iff : Registers requests source m ↔
    ∃ written, SameWords written source ∧ (written, m) ∈ requests.filterMap Request.registration? := by
  refine exists_congr fun written => and_congr_right fun _ => ?_
  rw [List.mem_filterMap]
  constructor
  · intro asked
    exact ⟨_, asked, rfl⟩
  · rintro ⟨r, asked, same⟩
    cases r with
    | register => cases same; exact asked
    | compile => cases same

/-- What was compiled on the way does not count. -/
theorem registers_congr (alike : others.filterMap Request.registration? = requests.filterMap Request.registration?) :
    Registers others source m ↔ Registers requests source m := by
  rw [registers_iff, registers_iff, alike]

theorem Registers.mono (h : Registers requests source m) (more : requests ⊆ others) : Registers others source m := by
  obtain ⟨written, same, asked⟩ := h
  exact ⟨written, same, more asked⟩

theorem Registers.respell (h : Registers requests source m) (same : SameWords source source') :
    Registers requests source' m := by
  obtain ⟨written, words, asked⟩ := h
  exact ⟨written, words.trans same, asked⟩

/-- The compiler knows the sources that were registered, and whatever it knows or remembers of a source was
registered for it. What the cache remembers may differ from what the snippets have by now. -/
structure Faithful (requests : List Request) (c : Compiler) : Prop where
  unrefused : c.refusals = []
  known : ∀ source, (∃ m, Registers requests source m) → ∃ m, c.snippet? source = some m
  snippet : ∀ source m, c.snippet? source = some m → Registers requests source m
  cached : ∀ className source m, c.cached? className source = some m → Registers requests source m

theorem faithful_register (h : Faithful requests c) (written : String) (m : NativeMethod) :
    Faithful (requests ++ [.register written m]) (c.register written m) where
  unrefused := h.unrefused
  known := by
    rintro source ⟨n, written', same, asked⟩
    rw [snippet?_register]
    split
    · exact ⟨m, rfl⟩
    · next other =>
      rcases List.mem_append.1 asked with before | now
      · exact h.known source ⟨n, written', same, before⟩
      · cases List.mem_singleton.1 now
        exact absurd same other
  snippet source n found := by
    rw [snippet?_register] at found
    split at found
    · next same =>
      cases found
      exact ⟨written, same, List.mem_append_right _ List.mem_cons_self⟩
    · exact (h.snippet source n found).mono (List.subset_append_left _ _)
  cached className source n found := (h.cached className source n found).mono (List.subset_append_left _ _)

theorem faithful_remember (h : Faithful requests c) (className : String) (registered : Registers requests source m) :
    Faithful requests (c.remember className source m) where
  unrefused := h.unrefused
  known := h.known
  snippet := h.snippet
  cached className' source' n found := by
    rw [cached?_remember] at found
    split at found
    · split at found
      · next same =>
        cases found
        exact registered.respell same
      · cases found
    · exact h.cached className' source' n found

theorem faithful_compile (h : Faithful requests c) (className source : String) :
    Faithful requests (c.compile className source).2 := by
  rcases compile_cases h.unrefused className source with ⟨m, _, result⟩ | ⟨m, found, result⟩ | ⟨_, result⟩
  · rw [result]
    exact h
  · rw [result]
    exact faithful_remember h className (h.snippet source m found)
  · rw [result]
    exact h

theorem Faithful.congr (h : Faithful requests c)
    (alike : others.filterMap Request.registration? = requests.filterMap Request.registration?) :
    Faithful others c where
  unrefused := h.unrefused
  known source := by
    rintro ⟨m, asked⟩
    exact h.known source ⟨m, (registers_congr alike).1 asked⟩
  snippet source m found := (registers_congr alike).2 (h.snippet source m found)
  cached className source m found := (registers_congr alike).2 (h.cached className source m found)

theorem Faithful.serve (h : Faithful requests c) (r : Request) : Faithful (requests ++ [r]) (c.serve r) := by
  cases r with
  | register written m => exact faithful_register h written m
  | compile className source =>
    refine (faithful_compile h className source).congr ?_
    rw [List.filterMap_append]
    exact List.append_nil _

theorem faithful_after (requests : List Request) : Faithful requests (after requests) := by
  induction requests using List.reverseRecOn with
  | nil =>
    have none (source : String) : ¬ ∃ m, Registers [] source m := by
      rintro ⟨m, written, same, asked⟩
      cases asked
    exact ⟨rfl, fun source asked => absurd asked (none source), nofun, nofun⟩
  | append_singleton requests r ih =>
    rw [after, List.foldl_append]
    exact ih.serve r

/-- A source compiles if it was registered at all, and then to a method that was registered for it. -/
theorem Faithful.compile (h : Faithful requests c) (className source : String) :
    (∃ m, Registers requests source m ∧ (c.compile className source).1 = .ok m) ∨
      ((∀ m, ¬ Registers requests source m) ∧
        c.compile className source = (.error (.fault ("cannot compile " ++ className)), c)) := by
  rcases compile_cases h.unrefused className source with
    ⟨m, found, result⟩ | ⟨m, found, result⟩ | ⟨absent, result⟩
  · exact .inl ⟨m, h.cached className source m found, congrArg Prod.fst result⟩
  · exact .inl ⟨m, h.snippet source m found, congrArg Prod.fst result⟩
  · refine .inr ⟨fun m asked => ?_, result⟩
    obtain ⟨n, found⟩ := h.known source ⟨m, asked⟩
    cases absent.symm.trans found

/-- With one method for each source, it makes no difference whether it comes from the cache. -/
theorem Faithful.compile_eq_ok (h : Faithful requests c)
    (single : ∀ source m n, Registers requests source m → Registers requests source n → m = n) :
    (c.compile className source).1 = .ok m ↔ Registers requests source m := by
  rcases h.compile className source with ⟨n, registered, result⟩ | ⟨missing, result⟩
  · rw [result]
    constructor
    · rintro ⟨⟩
      exact registered
    · intro asked
      rw [single source m n asked registered]
  · rw [result]
    constructor
    · nofun
    · intro asked
      exact absurd asked (missing m)

theorem Faithful.compile_eq_error (h : Faithful requests c) {x : CompileError} :
    (c.compile className source).1 = .error x ↔
      (∀ m, ¬ Registers requests source m) ∧ x = .fault ("cannot compile " ++ className) := by
  rcases h.compile className source with ⟨m, registered, result⟩ | ⟨missing, result⟩
  · rw [result]
    constructor
    · nofun
    · rintro ⟨missing, _⟩
      exact absurd registered (missing m)
  · rw [result]
    constructor
    · rintro ⟨⟩
      exact ⟨missing, rfl⟩
    · rintro ⟨_, rfl⟩
      rfl

/-- Where no source is registered with two methods, to compile is to look up what was registered for the same words.
It fails where nothing was, and leaves the compiler as it is then. Neither the class nor what was compiled before makes
a difference. -/
theorem compile_after (single : ∀ source m n, Registers requests source m → Registers requests source n → m = n)
    (className source : String) :
    (∀ m, ((after requests).compile className source).1 = .ok m ↔ Registers requests source m) ∧
      (∀ x, ((after requests).compile className source).1 = .error x ↔
        (∀ m, ¬ Registers requests source m) ∧ x = .fault ("cannot compile " ++ className)) ∧
      (∀ x, ((after requests).compile className source).1 = .error x →
        ((after requests).compile className source).2 = after requests) ∧
      ∀ others className',
        others.filterMap Request.registration? = requests.filterMap Request.registration? →
        ((after others).compile className' source).1.toOption =
          ((after requests).compile className source).1.toOption := by
  have here := faithful_after requests
  refine ⟨fun m => here.compile_eq_ok single, fun x => here.compile_eq_error, fun x failed => ?_,
    fun others className' alike => ?_⟩
  · rcases here.compile className source with ⟨m, _, result⟩ | ⟨_, result⟩
    · cases result.symm.trans failed
    · rw [result]
  · have there : Faithful requests (after others) := (faithful_after others).congr alike.symm
    rcases there.compile className' source with ⟨m, registered, result⟩ | ⟨missing, result⟩
    · rw [result, (here.compile_eq_ok single).2 registered]
    · rcases here.compile className source with ⟨m, registered, _⟩ | ⟨_, result'⟩
      · exact absurd registered (missing m)
      · rw [result, result']
        rfl

/-- The place of the class in the cache was taken by another source in the meantime, and a source that was never
registered was asked for. The first source still compiles, written differently, as if nothing had been compiled. -/
theorem compile_after_interleaved :
    let answer : NativeMethod := ⟨"answer", [], .int, false, true, fun _ => .done (.int 42)⟩
    let nothing : NativeMethod := ⟨"nothing", [], .void, false, true, fun _ => .done .null⟩
    let requests : List Request := [.register "int answer()" answer, .compile "A" "int\n answer()",
      .compile "A" "garbage", .register "void nothing()" nothing, .compile "A" "void nothing()"]
    let registrations : List Request := [.register "int answer()" answer, .register "void nothing()" nothing]
    ((after requests).compile "A" " int answer()").1 = .ok answer ∧
      ((after registrations).compile "B" " int answer()").1.toOption = some answer ∧
      ((after requests).compile "A" "garbage").1 = .error (.fault "cannot compile A") ∧
      ((after requests).compile "A" "garbage").2 = after requests := by
  intro answer nothing requests registrations
  have asked_iff (source : String) (m : NativeMethod) : .register source m ∈ requests ↔
      source = "int answer()" ∧ m = answer ∨ source = "void nothing()" ∧ m = nothing := by
    simp [requests]
  have apart : ¬ SameWords "int answer()" "void nothing()" := by decide
  have single (source : String) (m n : NativeMethod) (first : Registers requests source m)
      (second : Registers requests source n) : m = n := by
    obtain ⟨written, same, asked⟩ := first
    obtain ⟨written', same', asked'⟩ := second
    rcases (asked_iff _ _).1 asked with ⟨rfl, rfl⟩ | ⟨rfl, rfl⟩ <;>
      rcases (asked_iff _ _).1 asked' with ⟨rfl, rfl⟩ | ⟨rfl, rfl⟩
    · rfl
    · exact absurd (same.trans same'.symm) apart
    · exact absurd (same'.trans same.symm) apart
    · rfl
  obtain ⟨found, _, _, elsewhere⟩ := compile_after single "A" " int answer()"
  obtain ⟨_, fails, kept, _⟩ := compile_after single "A" "garbage"
  have given : ((after requests).compile "A" " int answer()").1 = .ok answer :=
    (found answer).2 ⟨"int answer()", by decide, (asked_iff _ _).2 (.inl ⟨rfl, rfl⟩)⟩
  have failed : ((after requests).compile "A" "garbage").1 = .error (.fault "cannot compile A") := by
    refine (fails _).2 ⟨?_, rfl⟩
    rintro m ⟨written, same, asked⟩
    rcases (asked_iff _ _).1 asked with ⟨rfl, rfl⟩ | ⟨rfl, rfl⟩ <;> exact absurd same (by decide)
  refine ⟨given, ?_, failed, kept _ failed⟩
  rw [elsewhere registrations "B" rfl, given]
  rfl

/-- A source that is registered anew is not compiled anew for a class that has it in the cache. -/
example (first second : NativeMethod) :
    let c := after [.register "f" first, .compile "A" "f", .register "f" second]
    (c.compile "A" "f").1 = .ok first ∧ (c.compile "B" "f").1 = .ok second := ⟨rfl, rfl⟩

end Compiler

end SqlEngine
