import Hashboard.Event

/-!
# Where events go

As long as the receiver attached last is there, every event waits for it, in the order of the reports.
-/

namespace Hashboard.Mailbox

variable {m : Mailbox} {receiver : Nat} {waiting : List Event}

/-- The receiver attached last is still there, and these events wait for it. -/
structure Feeds (m : Mailbox) (receiver : Nat) (waiting : List Event) : Prop where
  current : m.current = some receiver
  waiting : m.waiting? receiver = some waiting

theorem Feeds.connected (h : m.Feeds receiver waiting) : m.connected = true := by
  obtain ⟨events, hevents, _⟩ := Option.map_eq_some_iff.mp h.waiting
  rw [Mailbox.connected, h.current, Option.any_some, hevents, Option.isSome_some]

theorem Feeds.put (h : m.Feeds receiver waiting) (event : Event) :
    (m.put event).Feeds receiver (waiting ++ [event]) ∧ (m.put event).dropped = m.dropped := by
  obtain ⟨events, hevents, rfl⟩ := Option.map_eq_some_iff.mp h.waiting
  have hslot : m.receivers[receiver]? = some (some events) := Option.join_eq_some_iff.mp hevents
  rw [Mailbox.put, if_pos h.connected]
  refine ⟨⟨h.current, ?_⟩, rfl⟩
  simp only [waiting?, h.current, Option.getD_some, Array.getElem?_modify, if_true, hslot]
  simp

theorem Feeds.putAll (h : m.Feeds receiver waiting) (events : List Event) :
    (m.putAll events).Feeds receiver (waiting ++ events) ∧ (m.putAll events).dropped = m.dropped := by
  induction events generalizing m waiting with
  | nil => exact ⟨(List.append_nil waiting).symm ▸ h, rfl⟩
  | cons event events ih =>
      obtain ⟨hput, hdropped⟩ := h.put event
      obtain ⟨hall, hrest⟩ := ih hput
      rw [List.append_assoc] at hall
      exact ⟨hall, hrest.trans hdropped⟩

end Hashboard.Mailbox
