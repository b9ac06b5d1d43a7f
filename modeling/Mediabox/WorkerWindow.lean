import Mediabox.Lib.Outcome

/-!
# Windows that are filled by a worker (`src/browser.c`, `src/downloads.c`)

The life of such a window on the main thread, and the worker that the work queue runs for it.
-/

set_option autoImplicit false

namespace Mediabox.WorkerWindow

inductive Pc where
  | running
  /-- `DESTROY` was answered with `AVBOX_DISPATCH_OK` -/
  | destroyed
  /-- after `CLEANUP` -/
  | gone
  /-- after a fault -/
  | stopped
  deriving DecidableEq, Repr

/-- `avbox_delegate_finished`, of a worker if there is one. -/
@[simp] def idle {ω : Type} [DecidableEq ω] (finished : ω) (worker : Option ω) : Bool :=
  worker = none || worker = some finished

theorem idle_iff {ω : Type} [DecidableEq ω] {finished : ω} {worker : Option ω} :
    idle finished worker = true ↔ worker = none ∨ worker = some finished := by
  simp

end Mediabox.WorkerWindow
