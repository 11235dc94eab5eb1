import SinosLang.Parse.Cursor

/-!
# How a parsing action ends

What is said about an action is said about one run of it: it ends with an answer and a cursor as
promised, or with a failure that is admitted. One rule for every way of putting actions together
takes such a statement apart, so a rule of the grammar is followed step by step, and each step is
known by its own statement alone.
-/

set_option autoImplicit false

namespace SinosLang.Parse

variable {α β : Type} {cursor after : Cursor} {admitted : Failure → Cursor → Prop}

/-- Run from a cursor, an action answers as promised or fails as admitted. -/
def Ends (action : Parse α) (cursor : Cursor) (promised : α → Cursor → Prop)
    (admitted : Failure → Cursor → Prop) : Prop :=
  match action cursor with
  | (.ok value, after) => promised value after
  | (.error failure, after) => admitted failure after

namespace Ends

variable {promised promised' : α → Cursor → Prop} {action : Parse α}

/-- A run that answers as promised ends well. -/
theorem of_ok {value : α} (run : action cursor = (.ok value, after)) (kept : promised value after) :
    Ends action cursor promised admitted := by
  unfold Ends
  rw [run]
  exact kept

/-- A run that fails as admitted ends well. -/
theorem of_error {failure : Failure} (run : action cursor = (.error failure, after))
    (known : admitted failure after) : Ends action cursor promised admitted := by
  unfold Ends
  rw [run]
  exact known

/-- The failure of an action is among the admitted ones. -/
theorem error (ends : Ends action cursor promised admitted) {failure : Failure}
    (run : action cursor = (.error failure, after)) : admitted failure after := by
  unfold Ends at ends
  rw [run] at ends
  exact ends

/-- A promised answer ends well. -/
theorem pure {value : α} (kept : promised value cursor) :
    Ends (Pure.pure value) cursor promised admitted :=
  kept

/-- An admitted failure ends well. -/
theorem fail {failure : Failure} (known : admitted failure cursor) :
    Ends (Parse.fail failure) cursor promised admitted :=
  known

/-- Less may be promised. -/
theorem mono (ends : Ends action cursor promised admitted)
    (less : ∀ value after, promised value after → promised' value after) :
    Ends action cursor promised' admitted := by
  unfold Ends at ends ⊢
  split at ends
  next value after _ => exact less value after ends
  next => exact ends

/-- A sequence ends well if its second action does wherever the first one may have left off. -/
theorem bind {promised' : β → Cursor → Prop} {next : α → Parse β}
    (first : Ends action cursor promised admitted)
    (second : ∀ value after, promised value after → Ends (next value) after promised' admitted) :
    Ends (action >>= next) cursor promised' admitted := by
  unfold Ends at first
  split at first
  next value after run =>
    have later := second value after first
    unfold Ends at later ⊢
    rw [bind_apply_of_ok run]
    exact later
  next failure after run => exact of_error (bind_apply_of_error run) first

/-- An answer may be changed once it is there. -/
theorem map {promised' : β → Cursor → Prop} {f : α → β}
    (ends : Ends action cursor (fun value after => promised' (f value) after) admitted) :
    Ends (f <$> action) cursor promised' admitted :=
  bind ends fun _ _ kept => pure kept

end Ends

end SinosLang.Parse
