import Mathlib.Data.List.DropRight
import Magicbox.Guarantees.SessionReports
import Magicbox.Source.PacketJson

/-!
# The recent packets

`recent_` in every run: the newest packets that were drained from the current
engine or, without one, from the last that there was. They are listed in the
order in which the source delivered them, and none of an earlier engine is.
-/

set_option autoImplicit false

namespace Magicbox.Guarantees.RecentPackets
open Source.Capture Source.Sampling Library.BoundedQueue Library.Runs SessionReports

variable {r : Runtime} {s : Session}

/-! ## Windows -/

/-- A window of a window is one of the whole. -/
theorem rtake_append_rtake {α : Type} (n : Nat) (l m : List α) :
    (l.rtake n ++ m).rtake n = (l ++ m).rtake n := by
  simp only [List.rtake_eq_reverse_take_reverse, List.reverse_append, List.reverse_reverse,
    List.take_append, List.take_take, List.length_reverse]
  congr 3
  omega

theorem length_rtake {α : Type} (n : Nat) (l : List α) : (l.rtake n).length = min n l.length := by
  rw [List.rtake, List.length_drop]
  omega

/-! ## The session that is listed -/

/-- The engine, or the last one that there was. -/
def lastSession (r : Runtime) : Option Session := (r.closed ++ r.engine_.toList).getLast?

/-- All that was drained in a session. -/
def drained (s : Session) : List PacketMetadata := s.observed.ledger.taken.flatten

def listed (r : Runtime) : List PacketMetadata :=
  (((lastSession r).map drained).getD []).rtake 200

theorem lastSession_some (h : r.engine_ = some s) : lastSession r = some s := by
  simp [lastSession, h]

theorem lastSession_none (h : r.engine_ = none) : lastSession r = r.closed.getLast? := by
  simp [lastSession, h]

theorem drained_quiet {event : Source.Engine.Event} (h : ∀ limit, event ≠ .drain limit) :
    drained (s.step event) = drained s := by
  simp only [drained, Session.step, Source.Engine.Observed.step]
  cases event with
  | drain limit => exact absurd rfl (h limit)
  | iterate drops => split <;> rfl
  | _ => rfl

theorem drained_drain (limit : Nat) :
    drained (s.step (.drain limit)) = drained s ++ (s.engine.drain limit).1 :=
  s.observed.ledger.taken_gave _

/-- What a step keeps: the window. -/
abbrev Listed (r : Runtime) : Prop := r.recent_ = listed r

/-- A step that drains nothing. -/
theorem Listed.keep {after : Runtime} (h : Listed r) (hrecent : after.recent_ = r.recent_)
    (hclosed : after.closed = r.closed)
    (hengine : after.engine_.map drained = r.engine_.map drained) : Listed after := by
  rw [Listed, hrecent, h]
  unfold listed
  cases hr : r.engine_ with
  | none =>
    have hafter : after.engine_ = none := by simpa [hr] using hengine
    rw [lastSession_none hr, lastSession_none hafter, hclosed]
  | some s =>
    rw [hr] at hengine
    obtain ⟨t, ht, hsame⟩ := Option.map_eq_some_iff.mp hengine
    rw [lastSession_some hr, lastSession_some ht, Option.map_some, Option.map_some, hsame]

theorem listed_drain (h : Listed r) (hengine : r.engine_ = some s) (purpose : Option Purpose) :
    Listed (r.drain s purpose) := by
  have hafter : (r.drain s purpose).engine_ = some (s.step (.drain 8192)) := by
    simp only [Runtime.drain]
  have hrecent : (r.drain s purpose).recent_ =
      (r.recent_ ++ (s.engine.drain 8192).1).rtake 200 := by
    simp only [Runtime.drain, List.rtake]
  rw [Listed, hrecent, h, listed, listed, lastSession_some hafter, lastSession_some hengine,
    Option.map_some, Option.map_some, Option.getD_some, Option.getD_some, drained_drain,
    rtake_append_rtake]

/-- Retiring an engine does not change what is listed. -/
theorem listed_retire (h : Listed r) : Listed r.retire := by
  have hlast : lastSession r.retire = lastSession r := by
    simp [lastSession, Runtime.retire]
  have hrecent : r.retire.recent_ = r.recent_ := rfl
  rw [Listed, hrecent, h, listed, listed, hlast]

theorem listed_stop (h : Listed r) (purpose : Purpose) : Listed (r.stop purpose) := by
  unfold Runtime.stop
  split
  · exact h.keep rfl rfl rfl
  · next s hengine =>
    refine h.keep rfl rfl ?_
    rw [hengine, Option.map_some, Option.map_some, drained_quiet (by simp)]

theorem listed_conclude (h : Listed r) (starts stores : Bool) (now : Int) :
    Listed (r.conclude starts stores now) := by
  unfold Runtime.conclude
  split
  · split
    · next name _ _ =>
      have hafter : (r.install name now).engine_ =
          some ⟨⟨(Source.Engine.fresh 8192 (by decide)).start, {}⟩, []⟩ := rfl
      rw [Listed, listed, lastSession_some hafter]
      rfl
    · exact h.keep rfl rfl rfl
  · exact (listed_retire h).keep rfl rfl rfl
  · exact h.keep rfl rfl rfl
  · exact h

theorem listed_step (h : Listed r) (event : Source.Sampling.Event) : Listed (r.step event) := by
  cases event with
  | capture event =>
    simp only [Runtime.step, Runtime.capture]
    split
    · next hworker =>
      refine h.keep rfl rfl ?_
      rw [Option.map_map]
      congr 1
      funext s
      refine drained_quiet fun limit hdrain => ?_
      rw [hdrain] at hworker
      cases hworker
    · exact h
  | put name opens =>
    simp only [Runtime.step, Runtime.put]
    split
    · exact listed_stop h _
    · exact h
  | delete =>
    simp only [Runtime.step, Runtime.delete]
    split
    · exact listed_stop h _
    · exact h
  | shutdown =>
    simp only [Runtime.step, Runtime.shutdown]
    split
    · exact listed_stop h _
    · exact h
  | joined =>
    simp only [Runtime.step, Runtime.joined]
    split
    · next purpose s _ hengine =>
      split
      · refine h.keep rfl rfl ?_
        rw [hengine, Option.map_some, Option.map_some, drained_quiet (by simp)]
      · exact h
    · exact h
  | tick =>
    simp only [Runtime.step, Runtime.tick]
    split
    · next hengine => exact listed_drain h hengine none
    · exact h
  | flush =>
    simp only [Runtime.step, Runtime.flush]
    split
    · next hengine => exact listed_drain h hengine _
    · exact h
  | finish now wall =>
    simp only [Runtime.step, Runtime.finish]
    split
    · next s _ hengine =>
      split
      · exact h.keep rfl rfl rfl
      · refine h.keep rfl rfl ?_
        rw [hengine]
        rfl
    · exact h
  | conclude starts stores now => exact listed_conclude h starts stores now

theorem listed_idle : Listed idle := by
  simp [Listed, listed, lastSession, idle]

theorem listed_run (events : List Source.Sampling.Event) : Listed (run Runtime.step idle events) :=
  invariant (P := fun _ => True) (I := Listed) (fun _ event _ h => listed_step h event)
    listed_idle fun _ _ => trivial

/-- What GET /api/v1/packets answers in every run is the newest of what was
drained in the last session, at most 200 packets: nothing without a session,
nothing of an earlier one. What was drained is what the queue let in, from the
first packet on, each once and in the order of the deliveries. -/
theorem recent_packets (events : List Source.Sampling.Event) :
    let r := run Runtime.step idle events
    r.recent_.length ≤ 200 ∧ (lastSession r = none → r.recent_ = []) ∧
      ∀ s, lastSession r = some s →
        r.recent_ = (drained s).rtake 200 ∧ drained s <+: s.observed.ledger.kept ∧
          (drained s).Sublist (s.observed.ledger.arrivals.map (·.item)) := by
  have hlisted : (run Runtime.step idle events).recent_ = listed _ := listed_run events
  have hsound := sound_run events
  refine ⟨?_, fun hnone => ?_, fun s hs => ⟨?_, ?_⟩⟩
  · rw [hlisted, listed, length_rtake]
    exact Nat.min_le_left _ _
  · rw [hlisted, listed, hnone]
    rfl
  · rw [hlisted, listed, hs]
    rfl
  · have hreported : Reported s := by
      rcases List.mem_append.mp (List.mem_of_getLast? hs) with hmem | hmem
      · exact (hsound.closed s hmem).1
      · exact hsound.reported s (Option.mem_toList.mp hmem)
    have horder := hreported.accounted.balanced.order
    have hfirst : drained s <+: s.observed.ledger.kept := ⟨_, horder⟩
    exact ⟨hfirst, hfirst.sublist.trans (List.filter_sublist.map _)⟩

end Magicbox.Guarantees.RecentPackets
