import LinkMeter.Proofs.Trial.Crew
import Mathlib.Algebra.Order.Ring.Nat

/-!
# Turns that come to an end

A server has every trial served by one publisher at most (`Live.Single`).  When
those who serve such a trial have had their turns, nobody stands in line any more
(`Live.line_settle`): the turn of a publisher calls up at most the reporter, whose
turn calls up nobody, so what the line can still bring about goes down by one with
every turn.

A publisher that waits goes on waiting for its instant, or waits for the one an
interval from now (`Live.Turned`).  Only a publisher that was called up does so; a
trial whose line was empty has no new instant to wait for
(`Live.dues_settle_of_nil`).
-/

namespace LinkMeter

open Pacing (Instant)

/-- The turns that a worker in the line can bring about, its own and those of whom it calls up. -/
def Worker.turns : Worker → ℕ
  | .publisher _ => 2
  | .reporter => 1

theorem Trial.Steady.isPeriodic_eq {before after : Trial} (h : before.Steady after) :
    after.isPeriodic = before.isPeriodic := by
  rw [isPeriodic, isPeriodic, h.interval_eq]

namespace Live

variable {live before after : Live} {now wall due : Instant}

theorem mem_dues : due ∈ live.dues ↔ Publisher.waiting due ∈ live.publishers := by
  rw [dues, List.mem_filterMap]
  constructor
  · rintro ⟨publisher, hpublisher, hdue⟩
    cases publisher with
    | waiting instant =>
        obtain rfl := Option.some.inj hdue
        exact hpublisher
    | starting => cases hdue
    | ended => cases hdue
  · exact fun hpublisher => ⟨_, hpublisher, rfl⟩

theorem length_dues_le (live : Live) : live.dues.length ≤ live.publishers.length :=
  List.length_filterMap_le _ _

/-- There is one publisher at most, and it waits for instants only if intervals pass. -/
structure Single (live : Live) : Prop where
  length_le : live.publishers.length ≤ 1
  periodic : ∀ due ∈ live.dues, live.trial.isPeriodic = true

theorem single_of_dues (hlength : live.publishers.length ≤ 1) (hnone : live.dues = []) :
    live.Single where
  length_le := hlength
  periodic := by
    intro due hdue
    rw [hnone] at hdue
    exact absurd hdue List.not_mem_nil

/-- The first publisher and the reporter are hired. -/
theorem single_start (hnone : live.publishers = []) (ending : Ending) :
    (live.startPublisher.startReporter ending).2.Single := by
  have hstarting : (live.startPublisher.startReporter ending).2.publishers = [.starting] := by
    rw [startReporter]
    split <;> simp [startPublisher, callUp, hnone]
  refine single_of_dues (by rw [hstarting]; exact Nat.le_refl 1) ?_
  rw [dues, hstarting]
  rfl

theorem Single.wake (h : live.Single) : live.wake.Single := ⟨h.length_le, h.periodic⟩

/-- Some turns at an instant lead from one to the other. -/
structure Turned (now : Instant) (before after : Live) : Prop where
  steady : before.trial.Steady after.trial
  length_eq : after.publishers.length = before.publishers.length
  /-- A publisher waits for the instant that it waited for, or for one that is later than now. -/
  due : ∀ due ∈ after.dues, due ∈ before.dues ∨
    before.trial.isDone = false ∧ before.trial.isPeriodic = true ∧
      due = now + before.trial.interval

theorem Turned.refl (live : Live) : Turned now live live where
  steady := Trial.Steady.refl live.trial
  length_eq := rfl
  due := fun _ => .inl

theorem Turned.trans {middle : Live} (hfirst : Turned now before middle)
    (hsecond : Turned now middle after) : Turned now before after where
  steady := hfirst.steady.trans hsecond.steady
  length_eq := hsecond.length_eq.trans hfirst.length_eq
  due := by
    intro due hdue
    rcases hsecond.due due hdue with hmiddle | ⟨hrunning, hperiodic, rfl⟩
    · exact hfirst.due due hmiddle
    · rw [hfirst.steady.isDone_eq] at hrunning
      rw [hfirst.steady.isPeriodic_eq] at hperiodic
      rw [hfirst.steady.interval_eq]
      exact .inr ⟨hrunning, hperiodic, rfl⟩

theorem Turned.single (h : Turned now before after) (hsingle : before.Single) : after.Single where
  length_le := h.length_eq ▸ hsingle.length_le
  periodic := by
    intro due hdue
    rw [h.steady.isPeriodic_eq]
    rcases h.due due hdue with hold | ⟨-, hperiodic, -⟩
    · exact hsingle.periodic due hold
    · exact hperiodic

/-! ## One turn -/

/-- After the turn of a publisher it waits as it did, or until an interval from now. -/
theorem due_publisherTurn {trial : Trial} {publisher : Publisher}
    (hwaits : (publisherTurn trial now wall publisher).1 = .waiting due) :
    publisher = .waiting due ∨ trial.isDone = false ∧ due = now + trial.interval ∧
      (trial.isPeriodic = true ∨ ∃ earlier, publisher = .waiting earlier) := by
  have htold : ((trial.tick wall).publish wall).2.interval = trial.interval :=
    ((trial.tick wall).steady_publish wall).interval_eq
  cases publisher with
  | ended => cases hwaits
  | starting =>
      rw [publisherTurn] at hwaits
      split at hwaits
      · cases hwaits
      · split at hwaits
        · cases hwaits
        · cases hwaits
          exact .inr ⟨by simp_all, rfl, .inl (by simp_all)⟩
  | waiting instant =>
      rw [publisherTurn] at hwaits
      split at hwaits
      · cases hwaits
      case isFalse hrunning =>
        split at hwaits
        · split at hwaits
          · cases hwaits
          case h_2 hpublished =>
            rw [hpublished] at htold
            cases hwaits
            exact .inr ⟨Bool.eq_false_iff.2 hrunning, by rw [← htold], .inr ⟨instant, rfl⟩⟩
        · exact .inl hwaits

/-- The end of a trial ends its publisher. -/
theorem publisherTurn_of_isDone {trial : Trial} (hdone : trial.isDone = true)
    (publisher : Publisher) : (publisherTurn trial now wall publisher).1 = .ended := by
  cases publisher with
  | ended => rfl
  | starting =>
      rw [publisherTurn, if_pos hdone]
      split <;> rfl
  | waiting instant => rw [publisherTurn, if_pos hdone]

theorem turn_publisher {number : ℕ} {publisher : Publisher}
    (hpublisher : live.publishers[number]? = some publisher) :
    live.turn now wall (.publisher number) =
      ({ live with
        trial := (publisherTurn live.trial now wall publisher).2
        publishers := live.publishers.set number
          (publisherTurn live.trial now wall publisher).1 } : Live).wake := by
  rw [turn, hpublisher]

theorem Single.turned_turn (hsingle : live.Single) (now wall : Instant) (worker : Worker) :
    Turned now live (live.turn now wall worker) := by
  have hsteady := live.steady_turn now wall worker
  cases worker with
  | publisher number =>
      cases hpublisher : live.publishers[number]? with
      | none =>
          rw [turn, hpublisher]
          exact Turned.refl live
      | some publisher =>
          rw [turn_publisher hpublisher] at hsteady ⊢
          refine ⟨hsteady, List.length_set, fun due hdue => ?_⟩
          rcases List.mem_or_eq_of_mem_set (mem_dues.1 hdue) with hold | hnew
          · exact .inl (mem_dues.2 hold)
          · have hmem := List.mem_of_getElem? hpublisher
            rcases due_publisherTurn hnew.symm with rfl | ⟨hrunning, hdue, hperiodic⟩
            · exact .inl (mem_dues.2 hmem)
            · -- it has published, and it did so before or has just begun to
              refine .inr ⟨hrunning, ?_, hdue⟩
              rcases hperiodic with hperiodic | ⟨earlier, rfl⟩
              · exact hperiodic
              · exact hsingle.periodic earlier (mem_dues.2 hmem)
  | reporter =>
      rw [turn] at hsteady ⊢
      split
      case h_1 hreporter | h_2 hreporter =>
        rw [hreporter] at hsteady
        exact ⟨hsteady, rfl, fun _ => .inl⟩
      case h_3 => exact Turned.refl live

/-! ## The line -/

/-- All turns that the line can bring about. -/
def pending (line : List Worker) : ℕ := (line.map Worker.turns).sum

theorem eq_singleton_of_getElem? {publishers : List Publisher} (hlength : publishers.length ≤ 1)
    {number : ℕ} {publisher : Publisher} (hpublisher : publishers[number]? = some publisher) :
    number = 0 ∧ publishers = [publisher] := by
  obtain ⟨hlt, rfl⟩ := List.getElem?_eq_some_iff.1 hpublisher
  obtain ⟨only, rfl⟩ := List.length_eq_one_iff.1 (show publishers.length = 1 by omega)
  obtain rfl : number = 0 := by simpa using hlt
  exact ⟨rfl, rfl⟩

/-- A trial that is over has no publisher to call up but one that waits. -/
theorem stoppedPublishers_eq_nil (hended : live.trial.isDone = true →
    ∀ publisher ∈ live.publishers, publisher = .ended) : live.stoppedPublishers = [] := by
  rw [stoppedPublishers]
  split
  case isFalse => rfl
  case isTrue hdone =>
    rw [List.map_eq_nil_iff, List.filter_eq_nil_iff]
    rintro ⟨publisher, number⟩ hmem
    have hpublisher := List.fst_mem_of_mem_zipIdx hmem
    rw [hended hdone publisher hpublisher]
    exact Bool.false_ne_true

theorem line_wake (hnone : live.stoppedPublishers = []) :
    live.wake.line = live.line ∨ live.wake.line = live.line ++ [.reporter] := by
  rw [wake, callUp, hnone, List.append_nil]
  split
  case isFalse => exact .inl (List.append_nil _)
  case isTrue =>
    rw [List.filter_cons, List.filter_nil]
    split
    · exact .inr rfl
    · exact .inl (List.append_nil _)

/-- A publisher that has had its turn calls up the reporter, if anybody. -/
theorem line_turn_publisher (hlength : live.publishers.length ≤ 1) (number : ℕ) :
    (live.turn now wall (.publisher number)).line = live.line ∨
      (live.turn now wall (.publisher number)).line = live.line ++ [.reporter] := by
  cases hpublisher : live.publishers[number]? with
  | none => exact .inl (by rw [turn, hpublisher])
  | some publisher =>
      obtain ⟨rfl, honly⟩ := eq_singleton_of_getElem? hlength hpublisher
      rw [turn_publisher hpublisher]
      refine line_wake (stoppedPublishers_eq_nil fun hdone => ?_)
      -- the publisher is the only one, and the end of the trial has ended it
      have hover : live.trial.isDone = true :=
        (steady_publisherTurn live.trial now wall publisher).isDone_eq ▸ hdone
      rw [honly, List.set_cons_zero, publisherTurn_of_isDone hover]
      exact List.forall_mem_singleton.2 rfl

theorem line_turn_reporter (live : Live) : (live.turn now wall .reporter).line = live.line := by
  rw [turn]
  split <;> rfl

theorem pending_turn_lt (hlength : live.publishers.length ≤ 1) (worker : Worker) :
    pending (live.turn now wall worker).line < pending (worker :: live.line) := by
  have hcons : pending (worker :: live.line) = worker.turns + pending live.line := List.sum_cons
  rw [hcons]
  cases worker with
  | publisher number =>
      rcases line_turn_publisher hlength number with hline | hline
      · rw [hline, Worker.turns]
        omega
      · have hone : pending (live.line ++ [.reporter]) = pending live.line + 1 := by
          rw [pending, List.map_append, List.sum_append]
          rfl
        rw [hline, hone, Worker.turns]
        omega
  | reporter =>
      rw [line_turn_reporter, Worker.turns]
      omega

theorem eq_nil_of_pending {line : List Worker} (hnone : pending line = 0) : line = [] := by
  cases line with
  | nil => rfl
  | cons worker line => cases worker <;> simp [pending, Worker.turns] at hnone

theorem pending_le (line : List Worker) : pending line ≤ 2 * line.length := by
  induction line with
  | nil => exact Nat.le_refl 0
  | cons worker line ih =>
      have hturns : worker.turns ≤ 2 := by cases worker <;> simp [Worker.turns]
      rw [pending, List.map_cons, List.sum_cons, List.length_cons]
      exact Nat.le_trans (Nat.add_le_add hturns ih) (by omega)

/-! ## Until nobody is left -/

/-- With enough turns the line comes to its end, and turns are all that happens. -/
theorem Single.settleFor {turns : ℕ} (hsingle : live.Single)
    (henough : pending live.line ≤ turns) :
    Turned now live (settleFor now wall turns live) ∧ (settleFor now wall turns live).line = [] := by
  induction turns generalizing live with
  | zero => exact ⟨Turned.refl live, eq_nil_of_pending (Nat.le_zero.1 henough)⟩
  | succ turns ih =>
      rw [Live.settleFor]
      split
      case h_1 hline => exact ⟨Turned.refl live, hline⟩
      case h_2 worker rest hline =>
        have hrest : ({ live with line := rest } : Live).Single := ⟨hsingle.1, hsingle.2⟩
        have hturned := hrest.turned_turn now wall worker
        have hless : pending (({ live with line := rest } : Live).turn now wall worker).line <
            pending live.line := hline ▸ pending_turn_lt hrest.length_le worker
        obtain ⟨hlater, hend⟩ := ih (hturned.single hrest) (by omega)
        exact ⟨⟨hturned.steady.trans hlater.steady, hlater.length_eq.trans hturned.length_eq,
          (hturned.trans hlater).due⟩, hend⟩

theorem Single.turned_settle (hsingle : live.Single) (now wall : Instant) :
    Turned now live (live.settle now wall) :=
  (hsingle.settleFor (pending_le live.line)).1

/-- Those who stood in line have had their turns, and those whom they called up. -/
theorem Single.line_settle (hsingle : live.Single) (now wall : Instant) :
    (live.settle now wall).line = [] :=
  (hsingle.settleFor (pending_le live.line)).2

/-- A reporter leaves the publishers alone. -/
theorem publishers_settleFor_of_reporter {turns : ℕ} {live : Live}
    (hline : ∀ worker ∈ live.line, worker = .reporter) :
    (Live.settleFor now wall turns live).publishers = live.publishers := by
  induction turns generalizing live with
  | zero => rfl
  | succ turns ih =>
      rw [Live.settleFor]
      split
      case h_1 => rfl
      case h_2 worker rest hrest =>
        rw [hrest] at hline
        obtain ⟨rfl, hothers⟩ := List.forall_mem_cons.1 hline
        rw [ih (by rw [line_turn_reporter]; exact hothers), turn]
        split <;> rfl

/-- Where nobody stood in line, no publisher waits for a new instant. -/
theorem Single.dues_settle_of_nil (hsingle : live.Single) (hline : live.line = []) :
    ∀ due ∈ (live.wake.settle now wall).dues, due ∈ live.dues := by
  intro due hdue
  rcases (hsingle.wake.turned_settle now wall).due due hdue with hold | ⟨hrunning, -⟩
  · exact hold
  · -- the trial goes on, so only the reporter was called up
    have hnone : live.stoppedPublishers = [] :=
      stoppedPublishers_eq_nil fun hdone => absurd (hrunning.symm.trans hdone) Bool.false_ne_true
    have hreporter : ∀ worker ∈ live.wake.line, worker = .reporter := by
      rcases line_wake hnone with hwake | hwake
      · simp [hwake, hline]
      · simp [hwake, hline]
    rwa [dues, settle, publishers_settleFor_of_reporter hreporter] at hdue

end Live

end LinkMeter
