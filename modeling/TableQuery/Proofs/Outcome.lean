import Mathlib.Data.List.Forall2

/-!
Attempts that may fail: what the parts of an attempt gave when the whole of it is known.
-/

namespace TableQuery

variable {Fault Other Item Result : Type}

theorem exists_of_bind_eq_ok {attempt : Except Fault Item} {next : Item → Except Fault Result}
    {result : Result} (done : (attempt >>= next) = .ok result) :
    ∃ item, attempt = .ok item ∧ next item = .ok result := by
  cases attempt with
  | error fault => cases done
  | ok item => exact ⟨item, rfl, done⟩

theorem bind_eq_of_eq_ok {attempt : Except Fault Item} {item : Item} (done : attempt = .ok item)
    (next : Item → Except Fault Result) : (attempt >>= next) = next item := by
  rw [done]
  rfl

/-- A step that cannot fail is not at fault. -/
theorem eq_error_of_bind_ok {attempt : Except Fault Item} {change : Item → Result} {fault : Fault}
    (failed : (attempt >>= fun item => .ok (change item)) = .error fault) :
    attempt = .error fault := by
  cases attempt with
  | error other =>
      cases failed
      rfl
  | ok item => cases failed

theorem exists_of_map_eq_ok {attempt : Except Fault Item} {change : Item → Result}
    {result : Result} (done : attempt.map change = .ok result) :
    ∃ item, attempt = .ok item ∧ change item = result := by
  cases attempt with
  | error fault => cases done
  | ok item => exact ⟨item, rfl, Except.ok.inj done⟩

theorem eq_ok_of_mapError {attempt : Except Fault Item} {change : Fault → Other} {item : Item}
    (done : attempt.mapError change = .ok item) : attempt = .ok item := by
  cases attempt with
  | error fault => cases done
  | ok other => exact congrArg Except.ok (Except.ok.inj done)

theorem exists_of_mapError_eq_error {attempt : Except Fault Item} {change : Fault → Other}
    {other : Other} (failed : attempt.mapError change = .error other) :
    ∃ fault, attempt = .error fault ∧ change fault = other := by
  cases attempt with
  | error fault => exact ⟨fault, rfl, Except.error.inj failed⟩
  | ok item => cases failed

theorem mapError_mapError {Last : Type} (attempt : Except Fault Item) (change : Fault → Other)
    (next : Other → Last) :
    (attempt.mapError change).mapError next = attempt.mapError (next ∘ change) := by
  cases attempt <;> rfl

theorem mapError_bind (attempt : Except Fault Item) (next : Item → Except Fault Result)
    (change : Fault → Other) :
    (attempt >>= next).mapError change =
      attempt.mapError change >>= fun item => (next item).mapError change := by
  cases attempt <;> rfl

theorem mapError_mapM (items : List Item) (read : Item → Except Fault Result)
    (change : Fault → Other) :
    (items.mapM read).mapError change = items.mapM fun item => (read item).mapError change := by
  induction items with
  | nil => rfl
  | cons item items induction =>
      rw [List.mapM_cons, List.mapM_cons, mapError_bind]
      congr 1
      funext result
      rw [mapError_bind, induction]
      rfl

theorem length_of_mapM_eq_ok {read : Item → Except Fault Result} {items : List Item}
    {results : List Result} (done : items.mapM read = .ok results) :
    results.length = items.length := by
  induction items generalizing results with
  | nil =>
      cases done
      rfl
  | cons item items induction =>
      rw [List.mapM_cons] at done
      obtain ⟨result, -, done⟩ := exists_of_bind_eq_ok done
      obtain ⟨rest, later, done⟩ := exists_of_bind_eq_ok done
      cases done
      rw [List.length_cons, List.length_cons, induction later]

theorem exists_of_mapM_eq_error {read : Item → Except Fault Result} {items : List Item}
    {fault : Fault} (failed : items.mapM read = .error fault) :
    ∃ item ∈ items, read item = .error fault := by
  induction items with
  | nil => cases failed
  | cons item items induction =>
      rw [List.mapM_cons] at failed
      cases first : read item with
      | error other =>
          rw [first] at failed
          cases failed
          exact ⟨item, List.mem_cons_self, first⟩
      | ok result =>
          rw [bind_eq_of_eq_ok first] at failed
          cases later : items.mapM read with
          | error other =>
              rw [later] at failed
              cases failed
              obtain ⟨found, member, fails⟩ := induction later
              exact ⟨found, List.mem_cons_of_mem _ member, fails⟩
          | ok results =>
              rw [bind_eq_of_eq_ok later] at failed
              cases failed

theorem eq_ok_of_toOption {attempt : Except Fault Item} {item : Item}
    (found : attempt.toOption = some item) : attempt = .ok item := by
  cases attempt with
  | error fault => cases found
  | ok other => exact congrArg Except.ok (Option.some.inj found)

def fault? : Except Fault Item → Option Fault
  | .error fault => some fault
  | .ok _ => none

theorem eq_error_of_fault? {attempt : Except Fault Item} {fault : Fault}
    (found : fault? attempt = some fault) : attempt = .error fault := by
  cases attempt with
  | error other => exact congrArg Except.error (Option.some.inj found)
  | ok item => cases found

/-- Where one reading of an item is another one and a step that cannot fail, the same holds for all
items together. -/
theorem exists_mapM_of_mapM {Plain : Type} {read : Item → Except Fault Result}
    {readPlain : Item → Except Fault Plain} {step : Plain → Result}
    (each : ∀ item result, read item = .ok result →
      ∃ plain, readPlain item = .ok plain ∧ result = step plain)
    {items : List Item} {results : List Result} (done : items.mapM read = .ok results) :
    ∃ plains, items.mapM readPlain = .ok plains ∧ results = plains.map step := by
  induction items generalizing results with
  | nil =>
      cases done
      exact ⟨[], rfl, rfl⟩
  | cons item items induction =>
      rw [List.mapM_cons] at done
      rcases exists_of_bind_eq_ok done with ⟨result, first, done⟩
      rcases exists_of_bind_eq_ok done with ⟨rest, later, done⟩
      cases done
      rcases each item result first with ⟨plain, firstPlain, same⟩
      rcases induction later with ⟨plains, laterPlain, sameRest⟩
      refine ⟨plain :: plains, ?_, ?_⟩
      · rw [List.mapM_cons, firstPlain, laterPlain]
        rfl
      · rw [same, sameRest, List.map_cons]

theorem mapM_zipIdx_eq_ok {read : Item → Nat → Except Fault Result} {items : List Item}
    {results : List Result}
    (each : List.Forall₂ (fun item result => ∀ index, read item index = .ok result) items results)
    (first : Nat) :
    ((items.zipIdx first).mapM fun (item, index) => read item index) = .ok results := by
  induction each generalizing first with
  | nil => rfl
  | cons done _ induction =>
      rw [List.zipIdx_cons, List.mapM_cons, bind_eq_of_eq_ok (done first),
        bind_eq_of_eq_ok (induction (first + 1))]
      rfl

end TableQuery
