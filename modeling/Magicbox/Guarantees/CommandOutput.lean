import Magicbox.Library.Iteration
import Magicbox.Source.Process
import Mathlib.Tactic.MkIffOfInductiveProp
import Mathlib.Tactic.Tauto

/-!
# The output of a command

The network controller reads what `command` returns as the whole answer of the
program it ran. The two loops go through many orders of interrupted calls, late
deadlines and full buffers. What is kept through all of them is that the output is
the bytes of all reads so far, that `failed` says whether one of the calls so far
went wrong, and that the child is reaped by the last wait only.
-/

set_option autoImplicit false

namespace Magicbox.Guarantees.CommandOutput
open Library.Iteration Source.Process

/-! ## What the calls so far say -/

def PollFailed (p : Poll) : Prop := p.ready < 0 ∧ p.errno ≠ eintr

def ReadFailed : Read → Prop
  | .data _ _ => False
  | .error errno => errno ≠ eintr

/-- The bytes a read hands over. An interrupted read hands over none. -/
def bytesOf : Read → List UInt8
  | .data bytes _ => bytes
  | .error _ => []

def AtEnd : Read → Prop
  | .data bytes _ => bytes = []
  | .error _ => False

/-- The chunks of the first reads, one after the other. -/
def gathered (k : Kernel) (reads : Nat) : List UInt8 :=
  (List.range reads).flatMap fun i => bytesOf (k.read i)

def timeLimit (k : Kernel) : Nat := k.clock 0 + seconds 10

/-- None of the calls so far gives a reason to fail. -/
@[mk_iff]
structure Unflagged (k : Kernel) (clocks polls reads : Nat) : Prop where
  timely : ∀ i < clocks, k.clock i < timeLimit k
  polled : ∀ i < polls, ¬ PollFailed (k.poll i)
  readable : ∀ i < reads, ¬ ReadFailed (k.read i)

/-- The last wait reports the child with exit status 0. -/
def ExitedWell (k : Kernel) (s : State) : Prop :=
  ∃ i, i + 1 = s.waits ∧ (k.waitpid i).result = s.pid ∧
    wifexited (k.waitpid i).status = true ∧ wexitstatus (k.waitpid i).status = 0

/-- The last wait fails, and not because it was interrupted. -/
def WaitFailed (k : Kernel) (s : State) : Prop :=
  ∃ i, i + 1 = s.waits ∧ (k.waitpid i).result ≠ s.pid ∧
    (k.waitpid i).result < 0 ∧ (k.waitpid i).errno ≠ eintr

/-- The last read is the end of the file. -/
def EndRead (k : Kernel) (s : State) : Prop := ∃ i, i + 1 = s.reads ∧ AtEnd (k.read i)

/-- What a caller of `command` relies on when it gets an output. -/
structure Succeeded (k : Kernel) (s : State) : Prop where
  unflagged : Unflagged k s.clocks s.polls s.reads
  bounded : (gathered k s.reads).length ≤ outputLimit
  ended : EndRead k s
  exited : ExitedWell k s

/-- How many waits reported the child. -/
def reapings (k : Kernel) (s : State) : Nat :=
  (List.range s.waits).countP fun i => (k.waitpid i).result == s.pid

section Calls
variable {k : Kernel} {clocks polls reads : Nat}

@[simp] theorem gathered_succ :
    gathered k (reads + 1) = gathered k reads ++ bytesOf (k.read reads) := by
  simp [gathered, List.range_succ]

theorem unflagged_clock :
    Unflagged k (clocks + 1) polls reads ↔
      Unflagged k clocks polls reads ∧ k.clock clocks < timeLimit k := by
  simp only [unflagged_iff, Nat.forall_lt_succ_right]
  tauto

theorem unflagged_poll :
    Unflagged k clocks (polls + 1) reads ↔
      Unflagged k clocks polls reads ∧ ¬ PollFailed (k.poll polls) := by
  simp only [unflagged_iff, Nat.forall_lt_succ_right]
  tauto

theorem unflagged_read :
    Unflagged k clocks polls (reads + 1) ↔
      Unflagged k clocks polls reads ∧ ¬ ReadFailed (k.read reads) := by
  simp only [unflagged_iff, Nat.forall_lt_succ_right]
  tauto

end Calls

/-! ## The invariant -/

/-- In the read loop nothing went wrong so far, and no wait was made. -/
structure Reading (k : Kernel) (s : State) : Prop where
  deadline : s.deadline = timeLimit k
  output : s.output = gathered k s.reads
  unfailed : s.failed = false
  unflagged : Unflagged k s.clocks s.polls s.reads
  unwaited : s.waits = 0
  unkilled : s.kills = 0

/-- Behind the read loop `failed` says whether a call so far went wrong. -/
structure Settled (k : Kernel) (s : State) : Prop where
  deadline : s.deadline = timeLimit k
  output : s.output = gathered k s.reads
  verdict : s.failed = false ↔
    Unflagged k s.clocks s.polls s.reads ∧ (gathered k s.reads).length ≤ outputLimit
  ended : s.failed = false → EndRead k s
  unkilled : s.failed = false → s.kills = 0

def Unreaped (k : Kernel) (s : State) : Prop := ∀ i < s.waits, (k.waitpid i).result ≠ s.pid

/-- The last wait of a function that was left, and where it led. -/
structure Left (k : Kernel) (s : State) : Prop where
  settled : Settled k s
  last : ∃ i, i + 1 = s.waits ∧ (∀ j < i, (k.waitpid j).result ≠ s.pid) ∧
    ((k.waitpid i).result = s.pid ∧ s.status = (k.waitpid i).status ∧ s.point = conclude s ∨
      (k.waitpid i).result ≠ s.pid ∧ (k.waitpid i).result < 0 ∧ (k.waitpid i).errno ≠ eintr ∧
        s.point = .threw (.runtimeError (text "Cannot reap command process")))

/-- The child runs, and no call was made since. -/
structure Fresh (s : State) : Prop where
  output : s.output = []
  unfailed : s.failed = false
  clocks : s.clocks = 0
  polls : s.polls = 0
  reads : s.reads = 0
  waits : s.waits = 0
  kills : s.kills = 0

def Inv (k : Kernel) (s : State) : Prop :=
  match s.point with
  | .arm => Fresh s
  | .check => Reading k s
  | .poll | .read => Reading k s ∧ (gathered k s.reads).length ≤ outputLimit
  | .close | .waitpid | .overdue | .sleep => Settled k s ∧ Unreaped k s
  | .returned _ | .threw _ => Left k s

section Step
variable {k : Kernel} {s : State}

theorem inv_of_left (hleft : s.point.left = true) (h : Left k s) : Inv k s := by
  cases hpoint : s.point <;> simp_all [Inv, Point.left]

theorem left_of_inv (hleft : s.point.left = true) (h : Inv k s) : Left k s := by
  cases hpoint : s.point <;> simp_all [Inv, Point.left]

theorem conclude_left (s : State) : (conclude s).left = true := by
  unfold conclude
  split <;> rfl

theorem arm_inv (h : Fresh s) : Inv k (arm k s) where
  deadline := by simp [arm, timeLimit, h.clocks]
  output := by simp [arm, h.output, h.reads, gathered]
  unfailed := h.unfailed
  unflagged := by
    have hpolls : (arm k s).polls = 0 := h.polls
    have hreads : (arm k s).reads = 0 := h.reads
    refine ⟨?_, by simp [hpolls], by simp [hreads]⟩
    intro i hi
    obtain rfl : i = 0 := by simp [arm, h.clocks] at hi; exact hi
    simp [timeLimit, seconds]
  unwaited := h.waits
  unkilled := h.kills

/-- The read loop is left with `failed` set because something went wrong. -/
theorem Reading.fail {s' : State} (h : Reading k s)
    (hflag : ¬ (Unflagged k s'.clocks s'.polls s'.reads ∧
      (gathered k s'.reads).length ≤ outputLimit))
    (deadline : s'.deadline = s.deadline) (output : s'.output = gathered k s'.reads)
    (failed : s'.failed = true) (waits : s'.waits = s.waits) :
    Settled k s' ∧ Unreaped k s' := by
  refine ⟨⟨deadline.trans h.deadline, output, ?_, ?_, ?_⟩, ?_⟩
  · simp [failed, hflag]
  · simp [failed]
  · simp [failed]
  · simp [Unreaped, waits, h.unwaited]

theorem check_inv (h : Reading k s) : Inv k (check k s) := by
  unfold check
  split
  case isTrue hover =>
    refine h.fail ?_ rfl h.output rfl rfl
    rintro ⟨hclean, hlength⟩
    have htime := (unflagged_clock.mp hclean).2
    rw [h.deadline, h.output] at hover
    rcases hover with hlate | hlong
    · exact Nat.not_lt.mpr hlate htime
    · exact Nat.not_lt.mpr hlength hlong
  case isFalse hin =>
    rw [h.deadline, h.output, not_or, Nat.not_le, Nat.not_lt] at hin
    exact ⟨⟨h.deadline, h.output, h.unfailed, unflagged_clock.mpr ⟨h.unflagged, hin.1⟩,
      h.unwaited, h.unkilled⟩, hin.2⟩

theorem poll_inv (h : Reading k s) (hlength : (gathered k s.reads).length ≤ outputLimit) :
    Inv k (poll k s) := by
  simp only [poll]
  by_cases hfailed : PollFailed (k.poll s.polls)
  · obtain ⟨hneg, herrno⟩ := hfailed
    rw [if_neg fun hintr => herrno hintr.2, if_pos hneg]
    refine h.fail ?_ rfl h.output rfl rfl
    exact fun hgood => (unflagged_poll.mp hgood.1).2 ⟨hneg, herrno⟩
  · have hreading : Reading k { s with polls := s.polls + 1, point := .check } :=
      ⟨h.deadline, h.output, h.unfailed, unflagged_poll.mpr ⟨h.unflagged, hfailed⟩,
        h.unwaited, h.unkilled⟩
    split
    · exact hreading
    split
    case isTrue hintr hneg => exact absurd ⟨hneg, fun herrno => hintr ⟨hneg, herrno⟩⟩ hfailed
    split
    · exact hreading
    · exact ⟨⟨hreading.deadline, hreading.output, hreading.unfailed, hreading.unflagged,
        hreading.unwaited, hreading.unkilled⟩, hlength⟩

theorem read_inv (h : Reading k s) (hlength : (gathered k s.reads).length ≤ outputLimit) :
    Inv k (read k s) := by
  have hclean : ¬ ReadFailed (k.read s.reads) →
      Unflagged k s.clocks s.polls (s.reads + 1) :=
    fun hread => unflagged_read.mpr ⟨h.unflagged, hread⟩
  simp only [Source.Process.read]
  split
  case h_1 fits hread =>
    -- the end of the file: the only way out of the loop that does not set `failed`
    have hsame : gathered k (s.reads + 1) = gathered k s.reads := by
      simp [hread, bytesOf]
    have hfine := hclean (by simp [hread, ReadFailed])
    refine ⟨⟨h.deadline, h.output.trans hsame.symm, ?_, ?_, fun _ => h.unkilled⟩, ?_⟩
    · rw [hsame]
      exact iff_of_true h.unfailed ⟨hfine, hlength⟩
    · exact fun _ => ⟨s.reads, rfl, by simp [hread, AtEnd]⟩
    · simp [Unreaped, h.unwaited]
  case h_2 errno hread =>
    have hsame : gathered k (s.reads + 1) = gathered k s.reads := by
      simp [hread, bytesOf]
    split
    case isTrue hintr =>
      exact ⟨h.deadline, h.output.trans hsame.symm, h.unfailed,
        hclean (by simp [hread, ReadFailed, hintr]), h.unwaited, h.unkilled⟩
    case isFalse herrno =>
      refine h.fail ?_ rfl (h.output.trans hsame.symm) rfl rfl
      exact fun hgood => (unflagged_read.mp hgood.1).2 (by simpa [hread, ReadFailed] using herrno)
  case h_3 bytes fits _ hread =>
    exact ⟨h.deadline, by simp [hread, bytesOf, h.output], h.unfailed,
      hclean (by simp [hread, ReadFailed]), h.unwaited, h.unkilled⟩

/-- What the read loop settled does not depend on the waits. -/
theorem Settled.same {s' : State} (h : Settled k s) (deadline : s'.deadline = s.deadline)
    (output : s'.output = s.output) (failed : s'.failed = s.failed) (clocks : s'.clocks = s.clocks)
    (polls : s'.polls = s.polls) (reads : s'.reads = s.reads) (kills : s'.kills = s.kills) :
    Settled k s' where
  deadline := deadline.trans h.deadline
  output := by rw [output, reads, h.output]
  verdict := by rw [failed, clocks, polls, reads, h.verdict]
  ended hfine := by
    obtain ⟨i, hi, hend⟩ := h.ended (failed.symm.trans hfine)
    exact ⟨i, hi.trans reads.symm, hend⟩
  unkilled hfine := kills.trans (h.unkilled (failed.symm.trans hfine))

theorem close_inv (h : Settled k s ∧ Unreaped k s) : Inv k (close s) := by
  obtain ⟨hsettled, hunreaped⟩ := h
  unfold close
  split
  case isTrue hfailed =>
    exact ⟨⟨hsettled.deadline, hsettled.output, hsettled.verdict, hsettled.ended,
      fun hfine => absurd (hfailed.symm.trans hfine) (by decide)⟩, hunreaped⟩
  case isFalse _ => exact ⟨hsettled.same rfl rfl rfl rfl rfl rfl rfl, hunreaped⟩

theorem waitpid_inv (h : Settled k s ∧ Unreaped k s) : Inv k (waitpid k s) := by
  obtain ⟨hsettled, hunreaped⟩ := h
  simp only [waitpid]
  split
  case isTrue hreaped =>
    refine inv_of_left (conclude_left _) ?_
    exact ⟨hsettled.same rfl rfl rfl rfl rfl rfl rfl, s.waits, rfl, hunreaped,
      .inl ⟨hreaped, rfl, rfl⟩⟩
  case isFalse hother =>
    split
    case isTrue herror =>
      exact ⟨hsettled.same rfl rfl rfl rfl rfl rfl rfl, s.waits, rfl, hunreaped,
        .inr ⟨hother, herror.1, herror.2, rfl⟩⟩
    case isFalse _ =>
      exact ⟨hsettled.same rfl rfl rfl rfl rfl rfl rfl,
        Nat.forall_lt_succ_right.mpr ⟨hunreaped, hother⟩⟩

theorem overdue_inv (h : Settled k s ∧ Unreaped k s) : Inv k (overdue k s) := by
  obtain ⟨hsettled, hunreaped⟩ := h
  unfold overdue
  split
  case isTrue hlate =>
    rw [hsettled.deadline] at hlate
    refine ⟨⟨hsettled.deadline, hsettled.output, ?_, nofun, nofun⟩, hunreaped⟩
    exact iff_of_false (by simp [kill]) fun hgood =>
      absurd (unflagged_clock.mp hgood.1).2 (by omega)
  case isFalse hin =>
    rw [hsettled.deadline, Nat.not_le] at hin
    refine ⟨⟨hsettled.deadline, hsettled.output, ?_, hsettled.ended, hsettled.unkilled⟩, hunreaped⟩
    simp only [unflagged_clock, hin, and_true]
    exact hsettled.verdict

theorem step_inv (h : Inv k s) : Inv k (step k s) := by
  unfold step
  cases hpoint : s.point <;> simp only [Inv, hpoint] at h
  case arm => exact arm_inv h
  case check => exact check_inv h
  case poll => exact poll_inv h.1 h.2
  case read => exact read_inv h.1 h.2
  case close => exact close_inv h
  case waitpid => exact waitpid_inv h
  case overdue => exact overdue_inv h
  case sleep => exact ⟨h.1.same rfl rfl rfl rfl rfl rfl rfl, h.2⟩
  case returned output => simpa only [Inv, hpoint] using h
  case threw e => simpa only [Inv, hpoint] using h

theorem step_pid (k : Kernel) (s : State) : (step k s).pid = s.pid := by
  unfold step
  cases s.point <;>
    simp only [arm, check, poll, Source.Process.read, close, waitpid, overdue, kill] <;>
    repeat' split
  all_goals rfl

end Step

/-! ## How a run is left -/

section Left
variable {k : Kernel} {s : State}

theorem conclude_returned {output : List UInt8} :
    conclude s = .returned output ↔ s.output = output ∧ s.failed = false ∧
      wifexited s.status = true ∧ wexitstatus s.status = 0 := by
  unfold conclude
  split
  case isTrue hbad =>
    simp only [reduceCtorEq, false_iff]
    rintro ⟨-, hfine, hexited, hstatus⟩
    rcases hbad with hfailed | hsignal | hnonzero
    · exact absurd (hfailed.symm.trans hfine) (by decide)
    · exact absurd (hsignal.symm.trans hexited) (by decide)
    · exact hnonzero hstatus
  case isFalse hgood =>
    simp only [not_or, Bool.not_eq_true, Bool.not_eq_false, not_not] at hgood
    simp only [Point.returned.injEq, hgood, and_self, and_true]

/-- An output is returned only behind a run in which all went well. -/
theorem Left.sound (h : Left k s) {output : List UInt8} (hpoint : s.point = .returned output) :
    Succeeded k s ∧ s.failed = false ∧ output = gathered k s.reads := by
  obtain ⟨i, hi, hbefore, ⟨hreaped, hstatus, hend⟩ | ⟨-, -, -, hthrew⟩⟩ := h.last
  · obtain ⟨houtput, hfine, hexited, hzero⟩ := conclude_returned.mp (hend.symm.trans hpoint)
    obtain ⟨hunflagged, hbounded⟩ := h.settled.verdict.mp hfine
    rw [hstatus] at hexited hzero
    exact ⟨⟨hunflagged, hbounded, h.settled.ended hfine, i, hi, hreaped, hexited, hzero⟩, hfine,
      houtput.symm.trans h.settled.output⟩
  · exact absurd (hthrew.symm.trans hpoint) nofun

/-- Behind a run in which all went well the output is returned. -/
theorem Left.complete (h : Left k s) (hall : Succeeded k s) : s.point = .returned s.output := by
  obtain ⟨j, hj, hreaped, hexited, hzero⟩ := hall.exited
  obtain ⟨i, hi, hbefore, hlast⟩ := h.last
  obtain rfl : i = j := by omega
  rcases hlast with ⟨-, hstatus, hend⟩ | ⟨hother, -⟩
  · rw [hend]
    exact conclude_returned.mpr ⟨rfl, h.settled.verdict.mpr ⟨hall.unflagged, hall.bounded⟩,
      hstatus ▸ hexited, hstatus ▸ hzero⟩
  · exact absurd hreaped hother

theorem Left.throws (h : Left k s) (hleft : s.point.left = true) (hbad : ¬ Succeeded k s) :
    ∃ e, s.point = .threw e := by
  cases hpoint : s.point with
  | returned output => exact absurd (h.sound hpoint).1 hbad
  | threw e => exact ⟨e, rfl⟩
  | _ => simp [hpoint, Point.left] at hleft

theorem Left.reaped (h : Left k s) :
    WaitFailed k s ∧ reapings k s = 0 ∨ ¬ WaitFailed k s ∧ reapings k s = 1 := by
  obtain ⟨i, hi, hbefore, hlast⟩ := h.last
  have hnone : (List.range i).countP (fun j => (k.waitpid j).result == s.pid) = 0 := by
    rw [List.countP_eq_zero]
    intro j hj
    simpa using hbefore j (List.mem_range.mp hj)
  have hcount : reapings k s = if (k.waitpid i).result = s.pid then 1 else 0 := by
    simp [reapings, ← hi, List.range_succ, List.countP_append, hnone, List.countP_cons]
  rcases hlast with ⟨hreaped, -⟩ | ⟨hother, hneg, herrno, -⟩
  · refine .inr ⟨?_, by rw [hcount, if_pos hreaped]⟩
    rintro ⟨j, hj, hother, -⟩
    obtain rfl : i = j := by omega
    exact hother hreaped
  · exact .inl ⟨⟨i, hi, hother, hneg, herrno⟩, by rw [hcount, if_neg hother]⟩

end Left

/-! ## Every run that can be left is left -/

/-- A wait that ends the reap loop. -/
def Concludes (pid : Int) (wait : Wait) : Prop :=
  wait.result = pid ∨ wait.result < 0 ∧ wait.errno ≠ eintr

/-- The clock gets to the deadline, and behind every wait there is one that reports the child
or fails for good. -/
structure Fair (k : Kernel) (pid : Int) : Prop where
  passes : ∃ i, timeLimit k ≤ k.clock i
  reports : ∀ i, ∃ j, i ≤ j ∧ Concludes pid (k.waitpid j)

section Progress
variable {k : Kernel} {s : State}

theorem poll_leads (k : Kernel) (s : State) :
    (poll k s).clocks = s.clocks ∧ (poll k s).deadline = s.deadline ∧
      ((poll k s).point = .close ∨ (poll k s).point = .check ∨ (poll k s).point = .read) := by
  simp only [poll]
  repeat' split
  all_goals simp

theorem read_leads (k : Kernel) (s : State) :
    (Source.Process.read k s).clocks = s.clocks ∧
      (Source.Process.read k s).deadline = s.deadline ∧
      ((Source.Process.read k s).point = .close ∨ (Source.Process.read k s).point = .check) := by
  simp only [Source.Process.read]
  repeat' split
  all_goals simp

/-- One turn of the read loop behind its head: a poll, and a read where there is something. -/
theorem poll_turn (hpoint : s.point = .poll) :
    Reaches (step k) (fun t => t.point = .close ∨
      t.point = .check ∧ t.deadline = s.deadline ∧ t.clocks = s.clocks) s := by
  have hpoll : step k s = poll k s := by simp [step, hpoint]
  obtain ⟨hclocks, hdeadline, hclose | hcheck | hread⟩ := poll_leads k s
  · exact reaches_next (reaches_here (.inl (hpoll ▸ hclose)))
  · exact reaches_next (reaches_here (.inr (hpoll ▸ ⟨hcheck, hdeadline, hclocks⟩)))
  · obtain ⟨hclocks', hdeadline', hnext⟩ := read_leads k (poll k s)
    have hstep : step k (step k s) = Source.Process.read k (poll k s) := by
      rw [hpoll]
      simp only [step, hread]
    refine reaches_next (reaches_next (reaches_here ?_))
    rw [hstep, hclocks', hdeadline', hclocks, hdeadline]
    exact hnext.imp_right fun hcheck => ⟨hcheck, rfl, rfl⟩

theorem overdue_leads (k : Kernel) (s : State) :
    (overdue k s).point = .sleep ∧ (overdue k s).pid = s.pid ∧ (overdue k s).waits = s.waits := by
  unfold overdue
  split <;> exact ⟨rfl, rfl, rfl⟩

/-- The read loop ends at the latest when the clock is at the deadline. -/
theorem reading_ends {i : Nat} (hclock : timeLimit k ≤ k.clock i)
    (hpoint : s.point = .check) (hdeadline : s.deadline = timeLimit k) :
    Reaches (step k) (fun t => t.point = .close) s := by
  refine reaches_variant (I := fun t => t.point = .check ∧ t.deadline = timeLimit k)
    (fun t => i - t.clocks) ?_ ⟨hpoint, hdeadline⟩
  rintro s ⟨hpoint, hdeadline⟩
  refine reaches_next ?_
  by_cases hover : s.deadline ≤ k.clock s.clocks ∨ outputLimit < s.output.length
  · exact reaches_here (.inl (by simp [step, hpoint, check, hover]))
  have hsoon : s.clocks < i := by
    by_contra hpast
    have := k.steady (Nat.not_lt.mp hpast)
    exact hover (.inl (by omega))
  have hnext : step k s = { s with clocks := s.clocks + 1, point := .poll } := by
    simp [step, hpoint, check, hover]
  rw [hnext]
  refine reaches_bind (poll_turn rfl) fun t ht => reaches_here ?_
  rcases ht with hclose | ⟨hcheck, hsame, hclocks⟩
  · exact .inl hclose
  · have hvariant : i - t.clocks < i - s.clocks := by
      rw [hclocks]
      exact Nat.sub_succ_lt_self _ _ hsoon
    exact .inr ⟨⟨hcheck, hsame.trans hdeadline⟩, hvariant⟩

/-- One turn of the reap loop. -/
theorem reap_turn (hpoint : s.point = .waitpid) :
    Reaches (step k) (fun t => t.point.left = true ∨
      ¬ Concludes s.pid (k.waitpid s.waits) ∧
      t.point = .waitpid ∧ t.pid = s.pid ∧ t.waits = s.waits + 1) s := by
  have hwait : step k s = waitpid k s := by simp [step, hpoint]
  refine reaches_next ?_
  rw [hwait]
  by_cases hreaped : (k.waitpid s.waits).result = s.pid
  · refine reaches_here (.inl ?_)
    simp only [waitpid, if_pos hreaped]
    exact conclude_left _
  by_cases herror : (k.waitpid s.waits).result < 0 ∧ (k.waitpid s.waits).errno ≠ eintr
  · refine reaches_here (.inl ?_)
    simp only [waitpid, if_neg hreaped, if_pos herror]
    rfl
  · -- the child runs on: the deadline, 10 ms, and the next wait
    have hnone : ¬ Concludes s.pid (k.waitpid s.waits) := fun h => h.elim hreaped herror
    have hon : waitpid k s =
        { s with waits := s.waits + 1, status := (k.waitpid s.waits).status,
                 point := .overdue } := by
      simp only [waitpid, if_neg hreaped, if_neg herror]
    obtain ⟨hsleep, hpid, hwaits⟩ := overdue_leads k (waitpid k s)
    have hover : step k (waitpid k s) = overdue k (waitpid k s) := by
      rw [hon]
      rfl
    have hback : step k (overdue k (waitpid k s)) =
        { overdue k (waitpid k s) with point := .waitpid } := by
      simp only [step, hsleep]
    refine reaches_next (reaches_next (reaches_here (.inr ⟨hnone, ?_⟩)))
    rw [hover, hback]
    refine ⟨rfl, hpid.trans ?_, hwaits.trans ?_⟩ <;> rw [hon]

theorem reaping_ends {pid : Int} (hfair : Fair k pid) (hpoint : s.point = .waitpid)
    (hpid : s.pid = pid) : Reaches (step k) (fun t => t.point.left = true) s := by
  obtain ⟨j, hj, hends⟩ := hfair.reports s.waits
  refine reaches_variant (I := fun t => t.point = .waitpid ∧ t.pid = pid ∧ t.waits ≤ j)
    (fun t => j - t.waits) ?_ ⟨hpoint, hpid, hj⟩
  rintro s ⟨hpoint, hpid, hj⟩
  refine reaches_bind (reap_turn hpoint) fun t ht => reaches_here ?_
  rcases ht with hleft | ⟨hnone, hnext, hsame, hwaits⟩
  · exact .inl hleft
  · have hless : s.waits < j := by
      refine Nat.lt_of_le_of_ne hj fun hat => hnone ?_
      rw [hat, hpid]
      exact hends
    exact .inr ⟨⟨hnext, hsame.trans hpid, by omega⟩, by omega⟩

theorem run_ends (hfair : Fair k s.pid) (hpoint : s.point = .arm) (h : Fresh s) :
    Reaches (step k) (fun t => t.point.left = true) s := by
  have harm : step k s = arm k s := by simp [step, hpoint]
  obtain ⟨i, hclock⟩ := hfair.passes
  have hclose : Reaches (step k) (fun t => t.point = .close) s := by
    refine reaches_next ?_
    rw [harm]
    exact reading_ends hclock rfl (arm_inv (k := k) h).deadline
  have hkept := reaches_keeping (Q := fun t => t.pid = s.pid)
    (fun t ht => (step_pid k t).trans ht) rfl hclose
  refine reaches_bind hkept fun t ht => reaches_next ?_
  obtain ⟨hclosing, hpid⟩ := ht
  have hnext : step k t = close t := by simp [step, hclosing]
  have hwaiting : (step k t).point = .waitpid := by
    rw [hnext]
    unfold close
    split <;> rfl
  exact reaping_ends hfair hwaiting ((step_pid k t).trans hpid)

end Progress

/-! ## The whole function -/

theorem spawn_fresh {args : List (List UInt8)} {input : List UInt8} {setup : Setup} {child : State}
    (h : spawn args input setup = .ok child) :
    Fresh child ∧ child.point = .arm ∧ child.pid = setup.pid := by
  obtain ⟨name, -, rfl⟩ := spawn_child h
  exact ⟨⟨rfl, rfl, rfl, rfl, rfl, rfl, rfl⟩, rfl, rfl⟩

theorem command_run {args : List (List UInt8)} {input : List UInt8} {setup : Setup} {k : Kernel}
    {calls : Nat} {s : State} (h : command args input setup k calls = .ok s) :
    ∃ child, spawn args input setup = .ok child ∧ s = (step k)^[calls] child := by
  unfold command at h
  cases hspawn : spawn args input setup with
  | error e => simp [hspawn, bind, Except.bind] at h
  | ok child =>
    rw [hspawn] at h
    exact ⟨child, rfl, (Except.ok.inj h).symm⟩

theorem Inv.output {k : Kernel} {s : State} (h : Inv k s) : s.output = gathered k s.reads := by
  unfold Inv at h
  split at h
  · simp [h.output, h.reads, gathered]
  · exact h.output
  · exact h.1.output
  · exact h.1.output
  · exact h.1.output
  · exact h.1.output
  · exact h.1.output
  · exact h.1.output
  · exact h.settled.output
  · exact h.settled.output

theorem command_inv {args : List (List UInt8)} {input : List UInt8} {setup : Setup} {k : Kernel}
    {calls : Nat} {s : State} (h : command args input setup k calls = .ok s) : Inv k s := by
  obtain ⟨child, hspawn, rfl⟩ := command_run h
  obtain ⟨hfresh, harm, -⟩ := spawn_fresh hspawn
  have hstart : Inv k child := by simpa only [Inv, harm] using hfresh
  exact Function.Iterate.rec (Inv k) hstart (fun _ => step_inv) calls

/-- Partial output is never taken for a success, and the child is never left behind. -/
theorem command_output {args : List (List UInt8)} {input : List UInt8} {setup : Setup} {k : Kernel}
    {calls : Nat} {s : State} (h : command args input setup k calls = .ok s) :
    s.output = gathered k s.reads ∧
    (∀ output, s.point = .returned output →
      Succeeded k s ∧ s.failed = false ∧ output = gathered k s.reads ∧ output.length ≤ 262144) ∧
    (s.point.left = true → Succeeded k s ∧ s.point = .returned s.output ∨
      ¬ Succeeded k s ∧ ∃ e, s.point = .threw e) ∧
    (s.point.left = true →
      WaitFailed k s ∧ reapings k s = 0 ∨ ¬ WaitFailed k s ∧ reapings k s = 1) ∧
    (Fair k setup.pid → ∃ more s', command args input setup k more = .ok s' ∧
      s'.point.left = true) := by
  have hinv := command_inv h
  refine ⟨hinv.output, ?_, ?_, ?_, ?_⟩
  · intro output hpoint
    obtain ⟨hall, hfine, houtput⟩ := (left_of_inv (by rw [hpoint]; rfl) hinv).sound hpoint
    exact ⟨hall, hfine, houtput, houtput ▸ hall.bounded⟩
  · intro hleft
    have hend := left_of_inv hleft hinv
    by_cases hall : Succeeded k s
    · exact .inl ⟨hall, hend.complete hall⟩
    · exact .inr ⟨hall, hend.throws hleft hall⟩
  · exact fun hleft => (left_of_inv hleft hinv).reaped
  · intro hfair
    obtain ⟨child, hspawn, -⟩ := command_run h
    obtain ⟨hfresh, harm, hpid⟩ := spawn_fresh hspawn
    obtain ⟨more, hmore⟩ := run_ends (hpid ▸ hfair) harm hfresh
    refine ⟨more, (step k)^[more] child, ?_, hmore⟩
    simp [command, hspawn, bind, Except.bind, pure, Except.pure]

def exampleSetup : Setup := { fwrite := 0, pid := 7, strerror := fun _ => [] }

/-- The first poll, the first read and the second wait are interrupted. -/
def exampleKernel : Kernel where
  clock i := i * 1000
  steady _ _ h := Nat.mul_le_mul_right 1000 h
  poll i := if i = 0 then ⟨-1, eintr⟩ else ⟨1, 0⟩
  read
    | 0 => .error eintr
    | 1 => .data [91] (by decide)
    | 2 => .data [93] (by decide)
    | _ => .data [] (by decide)
  waitpid
    | 0 => ⟨0, 0, 0⟩
    | 1 => ⟨-1, eintr, 0⟩
    | _ => ⟨7, 0, 0⟩
  kill _ := 0

theorem command_output_example :
    ∃ s, command [text "ip"] [] exampleSetup exampleKernel 23 = .ok s ∧
      s.point = .returned [91, 93] ∧ Succeeded exampleKernel s ∧ reapings exampleKernel s = 1 := by
  have hrun : command [text "ip"] [] exampleSetup exampleKernel 23 =
      .ok ((step exampleKernel)^[23] ⟨text "ip", 7, .arm, [], 0, false, 0, 0, 0, 0, 0, 0⟩) := rfl
  exact ⟨_, hrun, rfl, ((command_output hrun).2.1 _ rfl).1, rfl⟩

end Magicbox.Guarantees.CommandOutput
