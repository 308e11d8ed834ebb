/-!
Waiting. A caller tries something again and again, and after each failure a hook of
its own runs. The hooks to come are a list, so a wait is data: it ends when the
attempt succeeds, and a wait whose hooks run out is still waiting (`result` is
`none`). A wait that succeeds at once runs no hook (`wait_of_attempt`).
-/
namespace AirMonitor

/-- How far a wait came. -/
structure Waited (α β : Type) where
  /-- What the attempt gave, once it succeeded. -/
  result : Option β
  state : α
  /-- The hooks that were not run. -/
  unused : List (α → α)

/-- Repeats an attempt and runs the next hook after each failure. -/
def wait {α β : Type} (attempt : α → Option (β × α)) : List (α → α) → α → Waited α β
  | hooks, s =>
    match attempt s with
    | some (result, s) => ⟨some result, s, hooks⟩
    | none =>
      match hooks with
      | [] => ⟨none, s, []⟩
      | hook :: hooks => wait attempt hooks (hook s)

theorem wait_of_attempt {α β : Type} {attempt : α → Option (β × α)} {s s' : α} {b : β}
    (succeeds : attempt s = some (b, s')) (hooks : List (α → α)) : wait attempt hooks s = ⟨some b, s', hooks⟩ := by
  cases hooks <;> simp [wait, succeeds]

end AirMonitor
