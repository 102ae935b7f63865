import LinkMeter.Proofs.Trial.Steady
import LinkMeter.Trial.Crew

/-!
# What those who serve a trial do to it

Publishers and reporters come and go without ending the trial that they serve.
In their turns they publish, receive and tick its clock, and nothing else
(`Live.exists_acts_settle`), so what every act on a trial keeps they keep too.
-/

namespace LinkMeter.Live

open Pacing (Instant)

/-- Whether a publisher or a reporter does this to its trial in a turn. -/
def isTurn : Trial.Act → Bool
  | .publish _ | .tick _ | .drain | .close => true
  | .add _ | .emit _ | .claim | .receive | .finish | .touch _ | .setDormant => false

variable (live : Live)

@[simp] theorem trial_startPublisher : live.startPublisher.trial = live.trial := rfl

/-- Whether there is a reporter afterwards or not, the queue has been handed out. -/
theorem trial_startReporter (ending : Ending) :
    (live.startReporter ending).2.trial = live.trial.claim.2 := by
  unfold startReporter
  split
  case h_1 trial hclaim => exact (congrArg Prod.snd hclaim).symm
  case h_2 trial hclaim =>
    have hclaimed : live.trial.isClaimed = true := by
      simpa [Trial.claim] using congrArg Prod.fst hclaim
    rw [Trial.claim, ← hclaimed]

/-- A publisher does nothing to its trial but publishing, perhaps with a tick of its clock. -/
theorem exists_acts_publisherTurn (trial : Trial) (now wall : Instant) (publisher : Publisher) :
    ∃ acts : List Trial.Act, acts.all isTurn ∧
      (publisherTurn trial now wall publisher).2 = acts.foldl Trial.perform trial := by
  have hnone : ∃ acts : List Trial.Act, acts.all isTurn ∧ trial = acts.foldl Trial.perform trial :=
    ⟨[], rfl, rfl⟩
  have hlast : ∃ acts : List Trial.Act, acts.all isTurn ∧
      (trial.publish wall).2 = acts.foldl Trial.perform trial := ⟨[.publish wall], rfl, rfl⟩
  have hdue : ∃ acts : List Trial.Act, acts.all isTurn ∧
      ((trial.tick wall).publish wall).2 = acts.foldl Trial.perform trial :=
    ⟨[.tick wall, .publish wall], rfl, rfl⟩
  unfold publisherTurn
  split
  case h_1 =>
    split
    · exact hnone
    · split
      · exact hlast
      · exact hnone
  case h_2 =>
    split
    · exact hlast
    · split
      · split
        case h_1 heq => rwa [heq] at hdue
        case h_2 heq => rwa [heq] at hdue
      · exact hnone
  case h_3 => exact hnone

/-- A reporter empties the queue of its trial, and may close it. -/
theorem exists_acts_reporterTurn (trial : Trial) (ending : Ending) (isOver : Bool) :
    ∃ acts : List Trial.Act, acts.all isTurn ∧
      (reporterTurn trial ending isOver).2.2 = acts.foldl Trial.perform trial := by
  cases isOver with
  | false => exact ⟨[.drain], rfl, rfl⟩
  | true => exact ⟨[.drain, .close], rfl, rfl⟩

theorem exists_acts_turn (now wall : Instant) (worker : Worker) :
    ∃ acts : List Trial.Act, acts.all isTurn ∧
      (live.turn now wall worker).trial = acts.foldl Trial.perform live.trial := by
  cases worker with
  | publisher number =>
      rw [turn]
      split
      · exact ⟨[], rfl, rfl⟩
      · exact exists_acts_publisherTurn live.trial now wall _
  | reporter =>
      rw [turn]
      split
      case h_1 ending _ => exact exists_acts_reporterTurn live.trial ending (live.hasEnded ending)
      case h_2 ending _ => exact exists_acts_reporterTurn live.trial ending (live.hasEnded ending)
      case h_3 => exact ⟨[], rfl, rfl⟩

/-- Whatever those who serve a trial do to it in their turns are acts of a few kinds. -/
theorem exists_acts_settle (now wall : Instant) :
    ∃ acts : List Trial.Act, acts.all isTurn ∧
      (live.settle now wall).trial = acts.foldl Trial.perform live.trial := by
  have hturns : ∀ (turns : Nat) (live : Live), ∃ acts : List Trial.Act, acts.all isTurn ∧
      (settleFor now wall turns live).trial = acts.foldl Trial.perform live.trial := by
    intro turns
    induction turns with
    | zero => exact fun live => ⟨[], rfl, rfl⟩
    | succ turns ih =>
        intro live
        unfold settleFor
        split
        case h_1 => exact ⟨[], rfl, rfl⟩
        case h_2 worker rest _ =>
          obtain ⟨acts, hacts, hturn⟩ := exists_acts_turn { live with line := rest } now wall worker
          obtain ⟨later, hlater, hrest⟩ := ih ({ live with line := rest }.turn now wall worker)
          refine ⟨acts ++ later, by simp [hacts, hlater], ?_⟩
          rw [hrest, hturn, List.foldl_append]
  exact hturns _ live

/-- None of these acts ends the trial. -/
theorem steady_of_isTurn (trial : Trial) {acts : List Trial.Act} (hacts : acts.all isTurn = true) :
    trial.Steady (acts.foldl Trial.perform trial) := by
  have hrunning : .finish ∉ acts := fun hmem => nomatch List.all_eq_true.mp hacts .finish hmem
  exact trial.steady_foldl_perform hrunning

theorem steady_publisherTurn (trial : Trial) (now wall : Instant) (publisher : Publisher) :
    trial.Steady (publisherTurn trial now wall publisher).2 := by
  obtain ⟨acts, hacts, heq⟩ := exists_acts_publisherTurn trial now wall publisher
  exact heq ▸ steady_of_isTurn trial hacts

theorem steady_turn (now wall : Instant) (worker : Worker) :
    live.trial.Steady (live.turn now wall worker).trial := by
  obtain ⟨acts, hacts, heq⟩ := live.exists_acts_turn now wall worker
  exact heq ▸ steady_of_isTurn live.trial hacts

theorem steady_settle (now wall : Instant) : live.trial.Steady (live.settle now wall).trial := by
  obtain ⟨acts, hacts, heq⟩ := live.exists_acts_settle now wall
  exact heq ▸ steady_of_isTurn live.trial hacts

end LinkMeter.Live
