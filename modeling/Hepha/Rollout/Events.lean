import Hepha.Rollout.Policy
import Mathlib.Data.List.Induction

/-!
# The events of a pilot

What the list of events says by itself, without the loop that reads it: the pilot
of the last admission (`admittedPilot`), and whether the pilot has been stopped
since then (`Stopped`).  The loop counts the events and keeps the admitted pilot;
the mode it ends in is the one the last event carries, whatever came before.
-/

namespace Hepha.Rollout

open JsValue (maxSafeInteger)

/-- An operator disablement, an expiry or a stop. -/
def EventKind.isStop : EventKind → Bool
  | disabledByOperator | pilotExpired | pilotStopped => true
  | pilotAdmitted | dispatchAllowed | dispatchRefused => false

/-- The pilot of the last admission. -/
def admittedPilot (events : List PilotEventRow) : Option JsString :=
  (events.reverse.find? (·.eventKind = .pilotAdmitted)).map PilotEventRow.pilotId

/-- The pilot was stopped, and none has been admitted since. -/
def Stopped (events : List PilotEventRow) : Prop :=
  ∃ before stop after, events = before ++ stop :: after ∧ stop.eventKind.isStop = true ∧
    ∀ e ∈ after, e.eventKind ≠ .pilotAdmitted

/-- Every event but an admission names the pilot admitted before it. -/
def NamesPilot (events : List PilotEventRow) : Prop :=
  ∀ before e after, events = before ++ e :: after → e.eventKind ≠ .pilotAdmitted →
    admittedPilot before = some e.pilotId

/-- The events are numbered from 1. -/
def Numbered (events : List PilotEventRow) : Prop :=
  events.map PilotEventRow.eventVersion = List.range' 1 events.length

variable {events : List PilotEventRow} {e : PilotEventRow} {s s' : PilotState}

/-! ## One more event -/

theorem admittedPilot_append :
    admittedPilot (events ++ [e]) =
      if e.eventKind = .pilotAdmitted then some e.pilotId else admittedPilot events := by
  by_cases h : e.eventKind = .pilotAdmitted <;> simp [admittedPilot, h]

theorem stopped_append :
    Stopped (events ++ [e]) ↔
      e.eventKind.isStop = true ∨ e.eventKind ≠ .pilotAdmitted ∧ Stopped events := by
  constructor
  · rintro ⟨before, stop, after, heq, hstop, hafter⟩
    rcases List.eq_nil_or_concat after with rfl | ⟨rest, last, rfl⟩
    · obtain ⟨-, hlast⟩ := List.append_inj' heq rfl
      cases hlast
      exact Or.inl hstop
    · have heq' : events ++ [e] = (before ++ stop :: rest) ++ [last] := by simp [heq]
      obtain ⟨hevents, hlast⟩ := List.append_inj' heq' rfl
      cases hlast
      exact Or.inr ⟨hafter e (by simp), before, stop, rest, hevents, hstop,
        fun x hx => hafter x (by simp [hx])⟩
  · rintro (hstop | ⟨hkind, before, stop, after, rfl, hstop, hafter⟩)
    · exact ⟨events, e, [], rfl, hstop, by simp⟩
    · refine ⟨before, stop, after ++ [e], by simp, hstop, ?_⟩
      intro x hx
      rcases List.mem_append.mp hx with hx | hx
      · exact hafter x hx
      · rw [List.mem_singleton.mp hx]
        exact hkind

theorem namesPilot_append :
    NamesPilot (events ++ [e]) ↔
      NamesPilot events ∧
        (e.eventKind ≠ .pilotAdmitted → admittedPilot events = some e.pilotId) := by
  constructor
  · intro h
    refine ⟨fun before x after heq hkind => ?_, h events e [] rfl⟩
    exact h before x (after ++ [e]) (by simp [heq]) hkind
  · rintro ⟨hevents, he⟩ before x after heq hkind
    rcases List.eq_nil_or_concat after with rfl | ⟨rest, last, rfl⟩
    · obtain ⟨rfl, hlast⟩ := List.append_inj' heq rfl
      cases hlast
      exact he hkind
    · have heq' : events ++ [e] = (before ++ x :: rest) ++ [last] := by simp [heq]
      obtain ⟨hbefore, -⟩ := List.append_inj' heq' rfl
      exact hevents before x rest hbefore hkind

theorem numbered_append (h : Numbered events) (he : e.eventVersion = events.length + 1) :
    Numbered (events ++ [e]) := by
  unfold Numbered at h ⊢
  rw [List.map_append, h, List.length_append, List.map_singleton, List.length_singleton,
    List.range'_concat, he]
  simp [Nat.add_comm]

theorem Numbered.sorted (h : Numbered events) :
    events.Pairwise fun a b => a.eventVersion ≤ b.eventVersion := by
  have hrange : (events.map PilotEventRow.eventVersion).Pairwise (· ≤ ·) := by
    rw [h]
    exact List.pairwise_le_range'
  exact List.pairwise_map.mp hrange

/-! ## The loop -/

/-- What a turn of the loop does. -/
theorem next_eq_some (h : s.next e = some s') :
    e.eventVersion = s.eventVersion + 1 ∧ s'.eventVersion = s.eventVersion + 1 ∧
      s'.mode = (if e.eventKind = .pilotAdmitted then .active else e.state.mode) ∧
      s'.pilot.map PilotStatus.pilotId =
        (if e.eventKind = .pilotAdmitted then some e.pilotId
        else s.pilot.map PilotStatus.pilotId) ∧ s'.pilot ≠ none := by
  unfold PilotState.next at h
  split at h
  · rename_i hchecks
    obtain ⟨⟨mode, pilot⟩, hout, rfl⟩ := Option.map_eq_some_iff.mp h
    refine ⟨hchecks.2.1, rfl, ?_⟩
    unfold PilotEventRow.outcome at hout
    split at hout
    · rename_i approval hkind _
      split at hout
      · rename_i hmatch
        cases hout
        simp [hkind, PilotApproval.status, hmatch.1]
      · cases hout
    · cases hout
    · cases hout
    · rename_i hkind
      obtain ⟨old, hold, heq⟩ := Option.map_eq_some_iff.mp hout
      cases heq
      simp [show e.eventKind ≠ .pilotAdmitted from hkind, hold]
  · cases h

theorem replay_append : replay (events ++ [e]) = (replay events).bind (·.next e) := by
  rw [replay, List.foldlM_append]
  cases h : events.foldlM PilotState.next PilotState.initial <;> simp [replay, h]

theorem replay_append_eq_some {s' : PilotState} (h : replay (events ++ [e]) = some s') :
    ∃ s, replay events = some s ∧ s.next e = some s' := by
  rw [replay_append] at h
  exact Option.bind_eq_some_iff.mp h

/-- **The loop counts the events and keeps the admitted pilot.** -/
theorem replay_eq_some (h : replay events = some s) :
    s.eventVersion = events.length ∧ Numbered events ∧
      s.pilot.map PilotStatus.pilotId = admittedPilot events ∧ (s.pilot = none ↔ events = []) := by
  induction events using List.reverseRecOn generalizing s with
  | nil =>
      obtain rfl := Option.some.inj h
      exact ⟨rfl, rfl, rfl, by simp [PilotState.initial]⟩
  | append_singleton events e ih =>
      obtain ⟨before, hbefore, hnext⟩ := replay_append_eq_some h
      obtain ⟨hcount, hnumbered, hpilot, -⟩ := ih hbefore
      obtain ⟨hversion, hversion', -, hpilot', hsome⟩ := next_eq_some hnext
      refine ⟨by simp [hversion', hcount], numbered_append hnumbered (by omega), ?_, ?_⟩
      · rw [hpilot', hpilot, admittedPilot_append]
      · simp [hsome]

/-- **The mode after an event is the one the event carries.** -/
theorem mode_of_replay_append (h : replay (events ++ [e]) = some s) :
    s.mode = if e.eventKind = .pilotAdmitted then .active else e.state.mode := by
  obtain ⟨before, -, hnext⟩ := replay_append_eq_some h
  exact (next_eq_some hnext).2.2.1

end Hepha.Rollout
