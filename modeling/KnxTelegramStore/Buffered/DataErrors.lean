import KnxTelegramStore.Buffered.Step
import KnxTelegramStore.Lib.Worklist
import Mathlib.Data.Fin.Tuple.Basic

/-!
Which failed writes are the fault of the telegrams (`_data_error_cause` in
`buffered.py`), looked for among all exceptions that the one raised is linked
to, and `store.py::wrap_store_errors`, which every operation passes its
exceptions through. The exceptions at hand are a finite graph, with cycles or
without.
-/
namespace KnxTelegramStore.Buffered
open Worklist

/-- The exception classes the code asks for, and any others. -/
inductive ExceptionClass where
  /-- the builtin `Exception`, which a cancellation is not -/
  | exception
  | typeError
  | valueError
  /-- `sqlalchemy.exc.DataError` -/
  | dataError
  /-- `sqlalchemy.exc.IntegrityError` -/
  | integrityError
  | knxTelegramStoreException
  | other (name : String)
  deriving DecidableEq

/-- An exception; `n` of them exist, and it is linked to some of these. -/
structure ExceptionObject (n : ℕ) where
  /-- its class and the bases of that -/
  mro : List ExceptionClass
  /-- `str(err)` -/
  message : String
  cause : Option (Fin n)
  context : Option (Fin n)
  /-- `getattr(err, "orig", None)` -/
  orig : Option (Fin n)

namespace ExceptionObject

variable {n : ℕ} (err : ExceptionObject n)

def isInstance (classes : List ExceptionClass) : Bool := classes.any (· ∈ err.mro)

/-- What `pending` is extended by. -/
def links : List (Option (Fin n)) := [err.cause, err.context, err.orig]

/-- The same exception after one more has been created. -/
def castSucc : ExceptionObject (n + 1) where
  mro := err.mro
  message := err.message
  cause := err.cause.map Fin.castSucc
  context := err.context.map Fin.castSucc
  orig := err.orig.map Fin.castSucc

theorem links_castSucc : err.castSucc.links = err.links.map (Option.map Fin.castSucc) := rfl

theorem isInstance_castSucc (classes : List ExceptionClass) :
    err.castSucc.isInstance classes = err.isInstance classes := rfl

end ExceptionObject

variable {n : ℕ} {sqlalchemy : Bool} {objects : Fin n → ExceptionObject n} {err x : Fin n}

/-- `data_error_types`; without SQLAlchemy its classes cannot be imported. -/
def dataErrorTypes (sqlalchemy : Bool) : List ExceptionClass :=
  [.typeError, .valueError] ++ if sqlalchemy then [.dataError, .integrityError] else []

def IsDataError (sqlalchemy : Bool) (err : ExceptionObject n) : Prop :=
  err.isInstance (dataErrorTypes sqlalchemy) = true

/-- `_data_error_cause`. -/
def dataErrorCause (sqlalchemy : Bool) (objects : Fin n → ExceptionObject n) (err : Fin n) : Option (Fin n) :=
  search (fun x => (objects x).isInstance (dataErrorTypes sqlalchemy)) (fun x => (objects x).links) ∅ [some err]

/-- Whether an exception is linked to `err`, over any number of others. -/
def Linked (objects : Fin n → ExceptionObject n) : Fin n → Fin n → Prop := Reaches fun x => (objects x).links

/-- `_data_error_cause` finds nothing exactly if there is no data error to be
reached. -/
theorem dataErrorCause_eq_none_iff : dataErrorCause sqlalchemy objects err = none ↔
    ∀ x, Linked objects err x → ¬ IsDataError sqlalchemy (objects x) := by
  simp only [dataErrorCause, search_eq_none_iff, Linked, IsDataError, Bool.not_eq_true]

theorem dataErrorCause_found (found : dataErrorCause sqlalchemy objects err = some x) :
    Linked objects err x ∧ IsDataError sqlalchemy (objects x) := by
  obtain ⟨meets, start, mem, reaches⟩ := search_found found
  cases List.mem_singleton.mp mem
  exact ⟨reaches, meets⟩

/-! ## Wrapped exceptions -/

/-- `KnxTelegramStoreException(...)`, raised from the exception that is being
handled. -/
def wrapper (objects : Fin n → ExceptionObject n) (err : Fin n) (func : String) : ExceptionObject (n + 1) where
  mro := [.knxTelegramStoreException, .exception]
  message := "Database error during " ++ func ++ ": " ++ (objects err).message
  cause := some err.castSucc
  context := some err.castSucc
  orig := none

/-- The exceptions that exist then, the new one last. -/
def withWrapper (objects : Fin n → ExceptionObject n) (err : Fin n) (func : String) :
    Fin (n + 1) → ExceptionObject (n + 1) :=
  Fin.lastCases (wrapper objects err func) fun x => (objects x).castSucc

/-- The wrapper is no data error, and leads to nothing but what it wraps. -/
theorem dataErrorCause_withWrapper (func : String) :
    dataErrorCause sqlalchemy (withWrapper objects err func) (Fin.last n) = none ↔
      dataErrorCause sqlalchemy objects err = none := by
  have newest : withWrapper objects err func (Fin.last n) = wrapper objects err func := Fin.lastCases_last
  have older (x : Fin n) : withWrapper objects err func x.castSucc = (objects x).castSucc :=
    Fin.lastCases_castSucc x
  have through : dataErrorCause sqlalchemy (withWrapper objects err func) (Fin.last n) = none ↔
      dataErrorCause sqlalchemy (withWrapper objects err func) err.castSucc = none := by
    refine search_through ?_ fun z => ?_
    · rw [newest]
      cases sqlalchemy <;> rfl
    · rw [Link, newest]
      simp [ExceptionObject.links, wrapper]
  rw [through]
  refine search_renamed (fun x => ?_) fun x => ?_
  · rw [older, ExceptionObject.links_castSucc]
  · rw [older, ExceptionObject.isInstance_castSucc]

/-- An exception that is raised, among all that exist. -/
structure Raised where
  size : ℕ
  objects : Fin size → ExceptionObject size
  err : Fin size

namespace Raised

/-- `wrap_store_errors` around a function that raises. -/
def wrapStoreErrors (r : Raised) (func : String) : Raised :=
  if (r.objects r.err).isInstance [.knxTelegramStoreException] then r
  else if (r.objects r.err).isInstance [.exception] then
    ⟨r.size + 1, withWrapper r.objects r.err func, Fin.last r.size⟩
  else r

/-- How a write that raises ends for the flush that awaits it. -/
def outcome (sqlalchemy : Bool) (r : Raised) : Outcome :=
  .raised (dataErrorCause sqlalchemy r.objects r.err).isSome

variable {r : Raised}

theorem dataErrorCause_wrapStoreErrors (func : String) :
    dataErrorCause sqlalchemy (r.wrapStoreErrors func).objects (r.wrapStoreErrors func).err = none ↔
      dataErrorCause sqlalchemy r.objects r.err = none := by
  unfold wrapStoreErrors
  by_cases own : (r.objects r.err).isInstance [.knxTelegramStoreException] = true
  · rw [if_pos own]
  · rw [if_neg own]
    by_cases exception : (r.objects r.err).isInstance [.exception] = true
    · rw [if_pos exception]
      exact dataErrorCause_withWrapper func
    · rw [if_neg exception]

/-- A flush goes on in the same way, whatever its write passed through. -/
theorem outcome_wrapStoreErrors (func : String) :
    (r.wrapStoreErrors func).outcome sqlalchemy = r.outcome sqlalchemy := by
  rw [outcome, outcome, Outcome.raised.injEq, Bool.eq_iff_iff, Option.isSome_iff_ne_none, Option.isSome_iff_ne_none]
  exact not_congr (dataErrorCause_wrapStoreErrors func)

/-- **`_data_error_cause` is reachability**, in every finite graph: it finds
nothing exactly if no data error can be reached, and otherwise one of those;
and however often the exception has been wrapped makes no difference. -/
theorem data_error_cause_exact (sqlalchemy : Bool) (r : Raised) :
    (dataErrorCause sqlalchemy r.objects r.err = none ↔
        ∀ x, Linked r.objects r.err x → ¬ IsDataError sqlalchemy (r.objects x)) ∧
      (∀ x, dataErrorCause sqlalchemy r.objects r.err = some x →
        Linked r.objects r.err x ∧ IsDataError sqlalchemy (r.objects x)) ∧
      ∀ functions : List String,
        let last := functions.foldl wrapStoreErrors r
        dataErrorCause sqlalchemy last.objects last.err = none ↔ dataErrorCause sqlalchemy r.objects r.err = none := by
  refine ⟨dataErrorCause_eq_none_iff, fun x found => dataErrorCause_found found, fun functions => ?_⟩
  induction functions generalizing r with
  | nil => exact Iff.rfl
  | cons func functions ih => exact (ih (r.wrapStoreErrors func)).trans (dataErrorCause_wrapStoreErrors func)

end Raised

end KnxTelegramStore.Buffered
