import ScriptEngine.Source.Interner
import Mathlib.Data.List.Basic

/-!
# Names and strings

An interner writes two tables.  `Interner.Records` says that they are each
other's inverse and that the strings stand in the order in which they were
first asked for; every call keeps it, so after any calls within the capacity
names and strings correspond one to one, and for good.
-/

namespace ScriptEngine

namespace Interner

/-- What an interner is asked. -/
inductive Call where
  | intern (string : String)
  | tryIntern (string : String)
  | get (string : String)
  | lookup (name : Name)

/-- The strings that a call interns. -/
def Call.interned : Call → List String
  | .intern string | .tryIntern string => [string]
  | .get _ | .lookup _ => []

/-- The distinct strings that calls intern, in the order of their first
interning, after the empty string. -/
def Call.distinct (calls : List Call) : List String :=
  ("" :: calls.flatMap interned).eraseDups

/-- The interner after a call, with the strings that the call was answered
with a name for. -/
def perform (interner : Interner) : Call → List (String × Name) × Interner
  | .intern string =>
      let (name, interner) := interner.intern string
      ([(string, name)], interner)
  | .tryIntern string =>
      match interner.tryIntern string with
      | (.ok name, interner) => ([(string, name)], interner)
      | (.error _, interner) => ([], interner)
  | .get _ | .lookup _ => ([], interner)

/-- The interner after calls, with every string that one of them was answered
with a name for. -/
def performAll (interner : Interner) : List Call → List (String × Name) × Interner
  | [] => ([], interner)
  | call :: calls =>
      let (given, interner) := interner.perform call
      let (others, interner) := interner.performAll calls
      (given ++ others, interner)

/-- A new interner after calls. -/
def after (calls : List Call) : Interner :=
  (initial.performAll calls).2

/-- The strings that have a name after calls on a new interner, as they were
answered. -/
def given (calls : List Call) : List (String × Name) :=
  ("", .empty) :: (initial.performAll calls).1

/-- The interner has a name for the strings of a list and for no others. -/
structure Records (interner : Interner) (seen : List String) : Prop where
  strings : interner.strings.toList = seen.eraseDups
  inverse : ∀ string index,
    interner.indices.lookup string = some index ↔ interner.strings[index]? = some string

theorem initial_records : initial.Records [""] where
  strings := by simp [initial, List.eraseDups_cons]
  inverse string index := by
    by_cases blank : string = ""
    · cases index with
      | zero => simp [initial, blank]
      | succ index => simp [initial, blank]
    · have unequal : (string == "") = false := by simpa using blank
      cases index with
      | zero => simp [initial, unequal, List.lookup_cons, Ne.symm blank]
      | succ index => simp [initial, unequal, List.lookup_cons]

namespace Records

variable {interner : Interner} {seen : List String}

theorem size (records : interner.Records seen) : interner.size = seen.eraseDups.length := by
  rw [← records.strings]
  simp [Interner.size]

theorem get?_iff (records : interner.Records seen) {string : String} {name : Name} :
    interner.get? string = some name ↔ interner.strings[name.index]? = some string := by
  rw [← records.inverse]
  obtain ⟨index⟩ := name
  simp [Interner.get?]

theorem lookup_of_get? (records : interner.Records seen) {string : String} {name : Name}
    (found : interner.get? string = some name) : interner.lookup name = string := by
  rw [records.get?_iff] at found
  simp [Interner.lookup, Array.getD_eq_getD_getElem?, found]

theorem get?_eq_none_iff (records : interner.Records seen) {string : String} :
    interner.get? string = none ↔ string ∉ seen := by
  rw [← List.mem_eraseDups, ← records.strings, Option.eq_none_iff_forall_ne_some,
    List.mem_iff_getElem?, not_exists]
  constructor
  · intro missing index found
    exact missing ⟨index⟩ (records.get?_iff.mpr (by simpa using found))
  · intro missing name found
    exact missing name.index (by simpa using records.get?_iff.mp found)

/-- Issuing a name to a new string writes both tables. -/
theorem issue (records : interner.Records seen) {string : String} (fresh : string ∉ seen) :
    (interner.issue string).2.Records (seen ++ [string]) where
  strings := by
    simp [Interner.issue, records.strings, List.eraseDups_append, List.eraseDups_cons,
      List.removeAll, fresh]
  inverse other index := by
    have missing (index : Nat) : interner.strings[index]? ≠ some string := by
      intro found
      have known : interner.get? string = some ⟨index⟩ := records.get?_iff.mpr found
      rw [records.get?_eq_none_iff.mpr fresh] at known
      cases known
    have vacant : interner.indices.lookup other ≠ some interner.size := by
      rw [Ne, records.inverse]
      simp [Interner.size]
    simp only [Interner.issue, List.lookup_cons, Array.getElem?_push, ← Interner.size.eq_def]
    by_cases same : other = string <;> by_cases last : index = interner.size
    · simp [same, last]
    · simp [same, last, Ne.symm last, missing]
    · simp [beq_false_of_ne same, Ne.symm same, last, vacant]
    · simp [beq_false_of_ne same, last, records.inverse]

theorem again (records : interner.Records seen) {strings : List String}
    (known : ∀ string ∈ strings, string ∈ seen) : interner.Records (seen ++ strings) where
  strings := by
    have nothing : strings.removeAll seen = [] := by simpa [List.removeAll] using known
    simp [records.strings, List.eraseDups_append, nothing]
  inverse := records.inverse

/-- The string of an interned name is in both tables. -/
theorem intern (records : interner.Records seen) (string : String) :
    (interner.intern string).2.Records (seen ++ [string]) ∧
      (interner.intern string).2.get? string = some (interner.intern string).1 := by
  by_cases known : string ∈ seen
  · have kept : interner.Records (seen ++ [string]) := records.again (by simpa using known)
    cases found : interner.get? string with
    | none => exact absurd known (records.get?_eq_none_iff.mp found)
    | some name => simp [Interner.intern, found, kept]
  · have unknown := records.get?_eq_none_iff.mpr known
    have named : (interner.issue string).2.get? string = some (interner.issue string).1 := by
      simp [Interner.issue, Interner.get?]
    simp [Interner.intern, unknown, records.issue known, named]

/-- While a name is left, both ways of interning a string are one. -/
theorem tryIntern_eq (records : interner.Records seen) {string : String}
    (fits : (seen ++ [string]).eraseDups.length ≤ capacity) :
    interner.tryIntern string =
      (.ok (interner.intern string).1, (interner.intern string).2) := by
  cases found : interner.get? string with
  | some name => simp [tryIntern, Interner.intern, found]
  | none =>
      have fresh := records.get?_eq_none_iff.mp found
      have length : interner.size + 1 = (seen ++ [string]).eraseDups.length := by
        simpa [Interner.issue, Interner.size] using (records.issue fresh).size
      have room : interner.size < capacity := by omega
      simp [tryIntern, Interner.intern, found, room]

/-- While a name is left for every string, a call interns its strings and
returns their names. -/
theorem perform (records : interner.Records seen) (call : Call)
    (fits : (seen ++ call.interned).eraseDups.length ≤ capacity) :
    (interner.perform call).2.Records (seen ++ call.interned) ∧
      (interner.perform call).1.map Prod.fst = call.interned ∧
      ∀ string name, (string, name) ∈ (interner.perform call).1 →
        (interner.perform call).2.get? string = some name := by
  cases call with
  | get | lookup => simpa [Interner.perform, Call.interned] using records
  | intern string =>
      simpa [Interner.perform, Call.interned] using records.intern string
  | tryIntern string =>
      simpa [Interner.perform, Call.interned, records.tryIntern_eq fits] using
        records.intern string

/-- A call that asks for no new string changes neither table. -/
theorem perform_known (records : interner.Records seen) (call : Call)
    (known : ∀ string ∈ call.interned, string ∈ seen) : (interner.perform call).2 = interner := by
  cases call with
  | get | lookup => rfl
  | intern string | tryIntern string =>
      have known : string ∈ seen := known string (by simp [Call.interned])
      cases found : interner.get? string with
      | none => exact absurd known (records.get?_eq_none_iff.mp found)
      | some name => simp [Interner.perform, tryIntern, Interner.intern, found]

end Records

/-- The second interner still has every name of the first. -/
def Keeps (first second : Interner) : Prop :=
  ∀ string name, first.get? string = some name → second.get? string = some name

theorem Records.keeps {first second : Interner} {seen more : List String}
    (before : first.Records seen) (after : second.Records (seen ++ more)) :
    first.Keeps second := by
  intro string name known
  rw [before.get?_iff, ← Array.getElem?_toList, before.strings] at known
  rw [after.get?_iff, ← Array.getElem?_toList, after.strings, List.eraseDups_append]
  exact List.getElem?_append_left (List.getElem?_eq_some_iff.mp known).1 |>.trans known

/-- What one call does, carried along any calls. -/
theorem Records.performAll {calls : List Call} {interner : Interner} {seen : List String}
    (records : interner.Records seen)
    (fits : (seen ++ calls.flatMap Call.interned).eraseDups.length ≤ capacity) :
    (interner.performAll calls).2.Records (seen ++ calls.flatMap Call.interned) ∧
      (interner.performAll calls).1.map Prod.fst = calls.flatMap Call.interned ∧
      ∀ string name, (string, name) ∈ (interner.performAll calls).1 →
        (interner.performAll calls).2.get? string = some name := by
  induction calls generalizing interner seen with
  | nil => simpa [Interner.performAll] using records
  | cons call calls inductive_hypothesis =>
      simp only [List.flatMap_cons, ← List.append_assoc] at fits ⊢
      have one := records.perform call (by
        rw [List.eraseDups_append] at fits
        simp only [List.length_append] at fits
        omega)
      have rest := inductive_hypothesis one.1 fits
      refine ⟨rest.1, by simp [Interner.performAll, one.2.1, rest.2.1], ?_⟩
      intro string name given
      obtain here | later := List.mem_append.mp given
      · exact one.1.keeps rest.1 string name (one.2.2 string name here)
      · exact rest.2.2 string name later

theorem performAll_append (interner : Interner) (calls more : List Call) :
    interner.performAll (calls ++ more) =
      ((interner.performAll calls).1 ++ ((interner.performAll calls).2.performAll more).1,
        ((interner.performAll calls).2.performAll more).2) := by
  induction calls generalizing interner with
  | nil => rfl
  | cons call calls inductive_hypothesis =>
      simp [performAll, inductive_hypothesis]

section Histories

variable {calls : List Call}

theorem after_records (fits : (Call.distinct calls).length ≤ capacity) :
    (after calls).Records ("" :: calls.flatMap Call.interned) :=
  (initial_records.performAll fits).1

theorem given_strings (fits : (Call.distinct calls).length ≤ capacity) :
    (given calls).map Prod.fst = "" :: calls.flatMap Call.interned := by
  simp [given, (initial_records.performAll fits).2.1]

/-- The table reads back what the calls were answered. -/
theorem get?_eq_some_iff_given (fits : (Call.distinct calls).length ≤ capacity)
    {string : String} {name : Name} :
    (after calls).get? string = some name ↔ (string, name) ∈ given calls := by
  have answered : ∀ {string name}, (string, name) ∈ given calls →
      (after calls).get? string = some name := by
    intro string name member
    obtain blank | later := List.mem_cons.mp member
    · cases blank
      exact initial_records.keeps (after_records fits) "" Name.empty rfl
    · exact (initial_records.performAll fits).2.2 string name later
  constructor
  · intro found
    have known : string ∈ (given calls).map Prod.fst := by
      rw [given_strings fits]
      by_contra fresh
      rw [(after_records fits).get?_eq_none_iff.mpr fresh] at found
      cases found
    obtain ⟨⟨string, other⟩, member, rfl⟩ := List.mem_map.mp known
    rw [answered member] at found
    cases found
    exact member
  · exact answered

theorem given_mono (calls more : List Call) : given calls ⊆ given (calls ++ more) := by
  intro pair member
  obtain blank | later := List.mem_cons.mp member
  · exact blank ▸ List.mem_cons_self
  · refine List.mem_cons_of_mem _ ?_
    rw [performAll_append]
    exact List.mem_append_left _ later

theorem distinct_length_mono (calls more : List Call) :
    (Call.distinct calls).length ≤ (Call.distinct (calls ++ more)).length := by
  rw [Call.distinct, Call.distinct, List.flatMap_append, ← List.cons_append,
    List.eraseDups_append, List.length_append]
  exact Nat.le_add_right _ _

/-- One more string is interned by either call alike, and its name reads it back. -/
theorem intern_next {string : String}
    (fits : (Call.distinct (calls ++ [.intern string])).length ≤ capacity) :
    ((after calls).intern string).2.lookup ((after calls).intern string).1 = string ∧
      (after calls).tryIntern string =
        (.ok ((after calls).intern string).1, ((after calls).intern string).2) := by
  have records := after_records (Nat.le_trans (distinct_length_mono calls _) fits)
  obtain ⟨written, named⟩ := records.intern string
  rw [Call.distinct, List.flatMap_append, ← List.cons_append] at fits
  exact ⟨written.lookup_of_get? named, records.tryIntern_eq (by simpa [Call.interned] using fits)⟩

end Histories

/-- Names and strings correspond one to one, in the order of first interning,
and no later call changes a name's string or a string's name. -/
theorem stable_bijection (calls more : List Call)
    (fits : (Call.distinct (calls ++ more)).length ≤ capacity) :
    -- every string is answered with a name, and the names are those below the size, in order
    (given calls).map Prod.fst = "" :: calls.flatMap Call.interned ∧
    (∀ string index,
      (string, ⟨index⟩) ∈ given calls ↔ (Call.distinct calls)[index]? = some string) ∧
    (after calls).size = (Call.distinct calls).length ∧
    ("", .empty) ∈ given calls ∧
    -- equal names are names of equal strings, whenever they were answered
    (∀ one first other second,
      (one, first) ∈ given (calls ++ more) → (other, second) ∈ given (calls ++ more) →
        (first = second ↔ one = other)) ∧
    -- a string is found under the name it was answered with, and under no other
    (∀ string name, (after calls).get? string = some name ↔ (string, name) ∈ given calls) ∧
    -- both directions of the correspondence, now and after more calls
    (∀ string name, (string, name) ∈ given calls →
      (after calls).lookup name = string ∧
        (after (calls ++ more)).lookup name = string ∧
        (after (calls ++ more)).get? string = some name) ∧
    (∀ string name, (string, name) ∈ given calls →
      (after calls).intern ((after calls).lookup name) = (name, after calls) ∧
        (after calls).tryIntern ((after calls).lookup name) = (.ok name, after calls)) ∧
    (∀ string, (Call.distinct (calls ++ [.intern string])).length ≤ capacity →
      ((after calls).intern string).2.lookup ((after calls).intern string).1 = string ∧
        (after calls).tryIntern string =
          (.ok ((after calls).intern string).1, ((after calls).intern string).2)) ∧
    -- reading and interning again write nothing
    (∀ call : Call, (∀ string ∈ call.interned, string ∈ Call.distinct calls) →
      ((after calls).perform call).2 = after calls) ∧
    ∀ name, (∀ string, (string, name) ∉ given calls) → (after calls).lookup name = "" := by
  have within : (Call.distinct calls).length ≤ capacity :=
    Nat.le_trans (distinct_length_mono calls more) fits
  have records := after_records within
  have issued : ∀ {string name},
      (string, name) ∈ given calls ↔ (after calls).strings[name.index]? = some string := by
    intro string name
    rw [← get?_eq_some_iff_given within, records.get?_iff]
  have text : ∀ {calls}, (Call.distinct calls).length ≤ capacity →
      ∀ string name, (string, name) ∈ given calls → (after calls).lookup name = string := by
    intro calls fits string name member
    exact (after_records fits).lookup_of_get? ((get?_eq_some_iff_given fits).mpr member)
  refine ⟨given_strings within, ?_, records.size, List.mem_cons_self, ?_,
    fun string name => get?_eq_some_iff_given within, ?_, ?_, fun string => intern_next, ?_, ?_⟩
  · intro string index
    rw [issued, ← Array.getElem?_toList, records.strings]
    rfl
  · intro one first other second here there
    constructor
    · intro same
      rw [← text fits one first here, ← text fits other second there, same]
    · intro same
      rw [← get?_eq_some_iff_given fits] at here there
      rw [same, there] at here
      exact (Option.some.inj here).symm
  · intro string name member
    have lasting := given_mono calls more member
    exact ⟨text within string name member, text fits string name lasting,
      (get?_eq_some_iff_given fits).mpr lasting⟩
  · intro string name member
    rw [text within string name member]
    have known := (get?_eq_some_iff_given within).mpr member
    exact ⟨intern_eq_of_get? known, by simp [tryIntern, known]⟩
  · intro call known
    exact records.perform_known call (by simpa [Call.distinct] using known)
  · intro name unissued
    have vacant : (after calls).strings[name.index]? = none := by
      rw [Option.eq_none_iff_forall_ne_some]
      intro string found
      exact unissued string (issued.mpr found)
    simp [lookup, Array.getD_eq_getD_getElem?, vacant]

/-- Two strings are interned, one of them twice, and a third one later. -/
theorem stable_bijection_of_repeated :
    (Call.distinct ([.intern "one", .tryIntern "two", .get "three", .intern "one"] ++
        [.lookup ⟨2⟩, .tryIntern "three"])).length ≤ capacity ∧
      (after [.intern "one", .tryIntern "two", .get "three", .intern "one"]).size = 3 ∧
      (after [.intern "one", .tryIntern "two", .get "three", .intern "one", .lookup ⟨2⟩,
        .tryIntern "three"]).lookup ⟨1⟩ = "one" := by
  have fits : (Call.distinct ([.intern "one", .tryIntern "two", .get "three", .intern "one"] ++
      [.lookup ⟨2⟩, .tryIntern "three"])).length ≤ capacity := by decide +kernel
  have holds := stable_bijection _ _ fits
  refine ⟨fits, ?_, ?_⟩
  · rw [holds.2.2.1]
    decide +kernel
  · exact (holds.2.2.2.2.2.2.1 "one" ⟨1⟩ (by decide +kernel)).2.1

end Interner

end ScriptEngine
