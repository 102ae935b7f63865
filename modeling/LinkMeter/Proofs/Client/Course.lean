import LinkMeter.Client.Run
import LinkMeter.Proofs.Trial.Emission

/-!
# Courses of a run

`Course` is a run with the workers that are about to leave with a failure.  Such
a worker does one thing after the other (`Farewell`): it emits the outcome of a
fatal failure, records the failure, finishes the trial and leaves, or it looks
whether the trial is finished, adds a sample if it is not, and leaves.  Anything
else may happen in between, so a turn is a move of the run or the next thing
that one of these workers does.  A run by its moves alone is a course in which
these workers are never interrupted (`Course.exists_after_play`).

Until a run is over it has told nothing but its start and what the reporter
passed on (`Course.Underway`).  The last turn adds the summary and the failure,
if there is one (`Course.Concluded`).  Every turn keeps the first or leads to the
second (`Course.Underway.step`), and after the second nothing happens.
-/

namespace LinkMeter.Client

/-- How a deed acts on a trial. -/
def Deed.act : Deed → Trial.Act
  | add sample => .add sample
  | emit outcome => .emit outcome

theorem Deed.apply_eq (deed : Deed) (trial : Trial) :
    deed.apply trial = trial.perform deed.act := by
  cases deed <;> rfl

/-- Whether a move emits into a full queue. -/
def Run.crowds (run : Run) : Move → Bool
  | .work deed => run.trial.crowds deed.act
  | .publish wall => (run.trial.tick wall).crowds (.publish wall)
  | .publishLast wall => run.trial.crowds (.publish wall)
  | _ => false

/-- How far a worker is that leaves with a failure. -/
inductive Farewell where
  | failed (failure : Failure)
  /-- The outcome of a fatal failure is emitted. -/
  | emitted (failure : Failure)
  /-- A fatal failure is recorded. -/
  | recorded
  /-- A failure that is not fatal has met a trial that was not finished. -/
  | met (failure : Failure)
  | done
  deriving DecidableEq, Inhabited

/-- A run with the workers that are about to leave. -/
structure Course where
  run : Run
  /-- The workers that are about to leave with a failure; they are still counted as working. -/
  farewells : List Farewell := []
  /-- The fatal failures, as they were recorded. -/
  recorded : List Failure := []
  /-- Whether an emission met a full queue. -/
  crowded : Bool := false
  deriving DecidableEq, Inhabited

/-- One turn of a worker, the publisher, the reporter or the client. -/
inductive Turn where
  | move (move : Move)
  /-- A worker that is about to leave does the next thing. -/
  | part (place : Nat)
  deriving DecidableEq, Inhabited

namespace Course

/-- A course from the start of a run. -/
def start (trial : Trial) (workers : Nat) : Course := { run := Run.start trial workers }

/-- Whether a worker is at work and not about to leave. -/
def hasIdle (course : Course) : Bool := course.farewells.length < course.run.working

/-- The course after a move of the run, if the move is possible. -/
def move (course : Course) (move : Move) : Course :=
  match course.run.step? move with
  | none => course
  | some run => { course with run := run, crowded := course.crowded || course.run.crowds move }

/-- The course after an act of a worker on the trial. -/
def act (course : Course) (act : Trial.Act) : Course :=
  { course with
    run := { course.run with trial := course.run.trial.perform act }
    crowded := course.crowded || course.run.trial.crowds act }

def putFarewell (course : Course) (place : Nat) (farewell : Farewell) : Course :=
  { course with farewells := course.farewells.set place farewell }

/-- A worker that is about to leave does the next thing. -/
def part (course : Course) (place : Nat) : Farewell → Course
  | .failed failure =>
    if failure.isFatal then
      (course.act (.emit (.ofFailure failure))).putFarewell place (.emitted failure)
    else if course.run.trial.isDone then course.putFarewell place .done
    else course.putFarewell place (.met failure)
  | .emitted failure =>
    { course with
      run := { course.run with fatal := course.run.fatal.or (some failure) }
      recorded := course.recorded ++ [failure] : Course }.putFarewell place .recorded
  | .recorded => (course.act .finish).putFarewell place .done
  | .met failure => (course.act (.add (.ofFailure failure))).putFarewell place .done
  | .done =>
    { course with
      run := { course.run with working := course.run.working - 1, left := course.run.left + 1 }
      farewells := course.farewells.eraseIdx place }

/-- The course after a turn. -/
def step (course : Course) : Turn → Course
  | .move (.leave (some failure)) =>
    if course.hasIdle then { course with farewells := course.farewells ++ [.failed failure] }
    else course
  | .move (.leave none) => if course.hasIdle then course.move (.leave none) else course
  | .move (.work deed) => if course.hasIdle then course.move (.work deed) else course
  | .move move => course.move move
  | .part place =>
    match course.farewells[place]? with
    | none => course
    | some farewell => course.part place farewell

/-- The course after some turns. -/
def after (course : Course) (turns : List Turn) : Course := turns.foldl step course

variable {trial : Trial} {workers : Nat} {course : Course}

/-! ## Before a run is over -/

/-- The run has told its start and what was passed on, and knows the latest outcome. -/
structure Underway (trial : Trial) (workers : Nat) (course : Course) : Prop where
  precedes : trial.Precedes course.run.trial
  workers_eq : course.run.left + course.run.working = workers
  farewells_le : course.farewells.length ≤ course.run.working
  fatal_eq : course.run.fatal = course.recorded.head?
  emitted_isFatal : ∀ failure, .emitted failure ∈ course.farewells → failure.isFatal = true
  recorded_isFatal : ∀ failure ∈ course.recorded, failure.isFatal = true
  isClosed_eq : course.run.trial.isClosed = false
  phase_ne : course.run.phase ≠ .over
  drains : course.run.phase = .draining →
    course.run.working = 0 ∧ course.run.trial.isDone = true
  events_eq : course.run.events =
    .started trial.measurement trial.peer :: course.run.history.map .published
  latest_eq : course.crowded = false →
    course.run.trial.latest = (course.run.history ++ course.run.trial.queue).getLast?

/-- The run is over: it has told the summary and its failure at the end, and nobody is left who
could do anything. -/
structure Concluded (trial : Trial) (workers : Nat) (course : Course) : Prop where
  precedes : trial.Precedes course.run.trial
  phase_eq : course.run.phase = .over
  isDone_eq : course.run.trial.isDone = true
  fatal_eq : course.run.fatal = course.recorded.head?
  recorded_isFatal : ∀ failure ∈ course.recorded, failure.isFatal = true
  deserted : course.farewells = [] ∧ course.run.working = 0 ∧ course.run.publishes = false
  summed : ∃ summary, course.run.summary = some summary ∧
    Summary.ofOutcomes? course.run.history summary.duration summary.workers = some summary ∧
    summary.workers = workers ∧
    course.run.events =
      .started trial.measurement trial.peer :: course.run.history.map .published ++
        .completed trial.measurement summary :: course.run.failureEvents
  latest_eq : course.crowded = false → course.run.trial.latest = course.run.history.getLast?

theorem underway_start (hfresh : trial.latest = none) (hqueue : trial.queue = [])
    (hopen : trial.isClosed = false) : (start trial workers).Underway trial workers where
  precedes := ⟨rfl, rfl, rfl, id⟩
  workers_eq := Nat.zero_add _
  farewells_le := Nat.zero_le _
  fatal_eq := rfl
  emitted_isFatal := by simp [start]
  recorded_isFatal := by simp [start]
  isClosed_eq := hopen
  phase_ne := fun hphase => by cases hphase
  drains := fun hphase => by cases hphase
  events_eq := rfl
  latest_eq := by
    intro _
    show trial.latest = ([] ++ trial.queue).getLast?
    rw [hfresh, hqueue]
    rfl

theorem passOn_nil (run : Run) : run.passOn [] = run := by
  simp [Run.passOn]

/-- What happens to the trial of a run is passed on. -/
theorem Underway.pass (h : course.Underway trial workers) {received : List Outcome}
    {crowded : Bool} {later : Trial} (hpasses : course.run.trial.Passes received crowded later) :
    ({ course with
      run := ({ course.run with trial := later } : Run).passOn received
      crowded := course.crowded || crowded } : Course).Underway trial workers where
  precedes := h.precedes.trans hpasses.precedes
  workers_eq := h.workers_eq
  farewells_le := h.farewells_le
  fatal_eq := h.fatal_eq
  emitted_isFatal := h.emitted_isFatal
  recorded_isFatal := h.recorded_isFatal
  isClosed_eq := hpasses.isClosed_eq.trans h.isClosed_eq
  phase_ne := h.phase_ne
  drains := by
    intro hphase
    obtain ⟨hworking, hdone⟩ := h.drains hphase
    exact ⟨hworking, hpasses.precedes.isDone_of_isDone hdone⟩
  events_eq := by
    simp only [Run.passOn, h.events_eq, List.map_append, List.cons_append]
  latest_eq := by
    intro hroom
    obtain ⟨hbefore, hnow⟩ := Bool.or_eq_false_iff.1 hroom
    exact hpasses.latest_eq h.isClosed_eq hnow (h.latest_eq hbefore)

/-- Whatever a worker does to the trial, the run goes on. -/
theorem Underway.act (h : course.Underway trial workers) {act : Trial.Act}
    (hact : act ≠ .close) (hreceived : course.run.trial.received act = []) :
    (course.act act).Underway trial workers := by
  have hpassed := h.pass (course.run.trial.passes_perform hact)
  rw [hreceived, passOn_nil] at hpassed
  exact hpassed

theorem Underway.putFarewell (h : course.Underway trial workers) (place : Nat)
    {farewell : Farewell} (hfatal : ∀ failure, farewell = .emitted failure → failure.isFatal) :
    (course.putFarewell place farewell).Underway trial workers :=
  { h with
    farewells_le := by
      rw [Course.putFarewell, List.length_set]
      exact h.farewells_le
    emitted_isFatal := by
      intro failure hmem
      rcases List.mem_or_eq_of_mem_set hmem with hold | hnew
      · exact h.emitted_isFatal failure hold
      · exact hfatal failure hnew.symm }

theorem Underway.part (h : course.Underway trial workers) {place : Nat} {farewell : Farewell}
    (hplace : course.farewells[place]? = some farewell) :
    (course.part place farewell).Underway trial workers := by
  obtain ⟨hlt, -⟩ := List.getElem?_eq_some_iff.1 hplace
  cases farewell with
  | failed failure =>
      rw [Course.part]
      split
      case isTrue hfatal =>
        refine (h.act (by simp) rfl).putFarewell _ fun other hother => ?_
        cases hother
        exact hfatal
      case isFalse =>
        split
        · exact h.putFarewell _ (by simp)
        · exact h.putFarewell _ (by simp)
  | emitted failure =>
      have hfatal := h.emitted_isFatal failure (List.mem_of_getElem? hplace)
      refine Underway.putFarewell ?_ _ (by simp)
      exact { h with
        fatal_eq := by
          dsimp only
          rw [h.fatal_eq]
          cases course.recorded <;> rfl
        recorded_isFatal := by
          intro other hother
          rcases List.mem_append.1 hother with hold | hnew
          · exact h.recorded_isFatal other hold
          · rw [List.mem_singleton.1 hnew]
            exact hfatal }
  | recorded => exact (h.act (by simp) rfl).putFarewell _ (by simp)
  | met failure => exact (h.act (by simp) rfl).putFarewell _ (by simp)
  | done =>
      have hle := h.farewells_le
      have hworkers := h.workers_eq
      exact { h with
        workers_eq := by
          show course.run.left + 1 + (course.run.working - 1) = workers
          omega
        farewells_le := by
          show (course.farewells.eraseIdx place).length ≤ course.run.working - 1
          rw [List.length_eraseIdx_of_lt hlt]
          omega
        emitted_isFatal := fun failure hmem =>
          h.emitted_isFatal failure (List.mem_of_mem_eraseIdx hmem)
        drains := by
          intro hphase
          obtain ⟨hworking, -⟩ := h.drains hphase
          omega }

/-! ## Moves -/

theorem lt_of_hasIdle (hidle : course.hasIdle = true) :
    course.farewells.length < course.run.working := by
  simpa [hasIdle] using hidle

theorem Underway.work (h : course.Underway trial workers) (hidle : course.hasIdle = true)
    (deed : Deed) : (course.move (.work deed)).Underway trial workers := by
  have hlt := lt_of_hasIdle hidle
  have hworking : course.run.working ≠ 0 := by omega
  rw [Course.move, Run.step?, if_neg hworking, Deed.apply_eq]
  have hact : deed.act ≠ .close := by cases deed <;> simp [Deed.act]
  refine h.act hact ?_
  cases deed <;> rfl

theorem Underway.leave (h : course.Underway trial workers) (hidle : course.hasIdle = true) :
    (course.move (.leave none)).Underway trial workers := by
  have hlt := lt_of_hasIdle hidle
  have hworking : course.run.working ≠ 0 := by omega
  have hworkers := h.workers_eq
  rw [Course.move, Run.step?, if_neg hworking]
  exact { h with
    workers_eq := by
      show course.run.left + 1 + (course.run.working - 1) = workers
      omega
    farewells_le := by
      show course.farewells.length ≤ course.run.working - 1
      omega
    drains := fun hphase => absurd (h.drains hphase).1 hworking
    latest_eq := fun hroom => h.latest_eq (Bool.or_eq_false_iff.1 hroom).1 }

theorem publish_eq (run : Run) (wall : Pacing.Instant) : ∃ publishes, run.publish wall =
    { run with
      trial := ((run.trial.tick wall).publish wall).2
      publishes := publishes } := by
  rw [Run.publish]
  split
  case h_1 hpublish => exact ⟨false, by rw [hpublish]⟩
  case h_2 hpublish => exact ⟨run.publishes, by rw [hpublish]⟩

theorem Underway.publish (h : course.Underway trial workers) (wall : Pacing.Instant) :
    (course.move (.publish wall)).Underway trial workers := by
  rw [Course.move, Run.step?]
  cases course.run.publishes with
  | false => exact h
  | true =>
      obtain ⟨publishes, hpublish⟩ := publish_eq course.run wall
      have hpasses := Trial.passes_publish (course.run.trial.tick wall) wall
      have hpassed := h.pass hpasses.of_tick
      rw [passOn_nil] at hpassed
      rw [if_pos rfl, hpublish]
      exact { hpassed with }

theorem Underway.publishLast (h : course.Underway trial workers) (wall : Pacing.Instant) :
    (course.move (.publishLast wall)).Underway trial workers := by
  rw [Course.move, Run.step?]
  cases course.run.publishes && course.run.trial.isDone with
  | false => exact h
  | true =>
      have hpassed := h.pass (Trial.passes_publish _ wall)
      rw [passOn_nil] at hpassed
      rw [if_pos rfl]
      exact { hpassed with }

theorem Underway.report (h : course.Underway trial workers) :
    (course.move .report).Underway trial workers := by
  rw [Course.move, Run.step?, if_neg h.phase_ne]
  cases hreceive : course.run.trial.receive with
  | mk received later =>
      cases received with
      | none => exact h
      | some outcome =>
          have hreceives : Trial.Act.receive ≠ .close := by simp
          have hpassed := h.pass (course.run.trial.passes_perform hreceives)
          simp only [Trial.received, Trial.perform, hreceive, Option.toList_some] at hpassed
          exact hpassed

theorem Underway.stop (h : course.Underway trial workers) :
    (course.move .stop).Underway trial workers := by
  rw [Course.move, Run.step?]
  split
  case h_1 => exact h
  case h_2 run hstep =>
    split at hstep
    case isFalse => cases hstep
    case isTrue hphase =>
      cases hstep
      -- whether the trial is finished by this or not, the client only waits for the workers now
      have hgoes : ∀ later : Trial, course.run.trial.Passes [] false later →
          ({ course with
            run := { course.run with phase := .stopping, trial := later }
            crowded := course.crowded || false } : Course).Underway trial workers := by
        intro later hpasses
        have hpassed := h.pass hpasses
        rw [passOn_nil] at hpassed
        exact { hpassed with
          phase_ne := fun hphase => by cases hphase
          drains := fun hphase => by cases hphase }
      apply hgoes
      split
      · exact course.run.trial.passes_perform (show Trial.Act.finish ≠ .close by simp)
      · exact Trial.Passes.refl _

theorem Underway.join (h : course.Underway trial workers) :
    (course.move .join).Underway trial workers := by
  rw [Course.move, Run.step?]
  split
  case h_1 => exact h
  case h_2 run hstep =>
    split at hstep
    case isFalse => cases hstep
    case isTrue hjoins =>
      cases hstep
      simp only [Bool.and_eq_true, decide_eq_true_eq] at hjoins
      have hpassed := h.act (show Trial.Act.finish ≠ .close by simp) rfl
      exact { hpassed with
        phase_ne := fun hphase => by cases hphase
        drains := fun _ => ⟨hjoins.2, rfl⟩ }

/-! ## The end of a run -/

/-- A summary says how long the run took and how many workers there were. -/
theorem eq_of_ofOutcomes? {outcomes : List Outcome} {duration : Span} {summary : Summary}
    (hsummary : Summary.ofOutcomes? outcomes duration workers = some summary) :
    summary.duration = duration ∧ summary.workers = workers := by
  simp only [Summary.ofOutcomes?, Option.bind_eq_bind, Option.bind_eq_some_iff, Option.pure_def,
    Option.some.injEq] at hsummary
  obtain ⟨bytes, -, packets, -, connections, -, rfl⟩ := hsummary
  exact ⟨rfl, rfl⟩

/-- Nothing is left to do before the summary. -/
def Drained (course : Course) : Prop :=
  course.run.phase = .draining ∧ course.run.publishes = false

theorem Underway.left_eq (h : course.Underway trial workers) (hdrained : course.Drained) :
    course.run.left = workers := by
  have hworkers := h.workers_eq
  rw [(h.drains hdrained.1).1] at hworkers
  exact hworkers

/-- The last turn, by which the run is over. -/
theorem move_conclude (h : course.Underway trial workers) (hdrained : course.Drained)
    (elapsed : Span) :
    course.move (.conclude elapsed) =
      match Summary.ofOutcomes? (course.run.history ++ course.run.trial.queue) elapsed workers with
      | none => course
      | some summary =>
        { course with
          run := { course.run with
            trial := course.run.trial.drain.2.close
            phase := .over
            history := course.run.history ++ course.run.trial.queue
            summary := some summary
            events := course.run.events ++ course.run.trial.queue.map .published ++
              .completed course.run.trial.measurement summary :: course.run.failureEvents }
          crowded := course.crowded || false } := by
  rw [Course.move, Run.step?, hdrained.1, hdrained.2]
  simp only [Run.close?, Trial.drain, Run.passOn, h.left_eq hdrained]
  cases Summary.ofOutcomes? (course.run.history ++ course.run.trial.queue) elapsed workers <;> rfl

theorem Underway.conclude (h : course.Underway trial workers) (elapsed : Span) :
    (course.move (.conclude elapsed)).Underway trial workers ∨
      (course.move (.conclude elapsed)).Concluded trial workers := by
  by_cases hdrained : course.Drained
  case neg =>
    have hstep : course.run.step? (.conclude elapsed) = none := by
      rw [Run.step?, if_neg]
      simpa [Drained] using hdrained
    rw [Course.move, hstep]
    exact .inl h
  case pos =>
    rw [move_conclude h hdrained]
    cases hsummary : Summary.ofOutcomes? (course.run.history ++ course.run.trial.queue) elapsed
        workers with
    | none => exact .inl h
    | some summary =>
        obtain ⟨hworking, hdone⟩ := h.drains hdrained.1
        obtain ⟨hduration, hcount⟩ := eq_of_ofOutcomes? hsummary
        have hfarewells := h.farewells_le
        rw [hworking, Nat.le_zero, List.length_eq_zero_iff] at hfarewells
        right
        exact {
          precedes := ⟨h.precedes.peer_eq, h.precedes.measurement_eq, h.precedes.interval_eq,
    h.precedes.isDone_of_isDone⟩
          phase_eq := rfl
          isDone_eq := hdone
          fatal_eq := h.fatal_eq
          recorded_isFatal := h.recorded_isFatal
          deserted := ⟨hfarewells, hworking, hdrained.2⟩
          summed := by
            refine ⟨summary, rfl, by rw [hduration, hcount]; exact hsummary, hcount, ?_⟩
            dsimp only
            rw [h.events_eq, h.precedes.measurement_eq, List.map_append]
            simp only [List.cons_append, List.append_assoc]
            rfl
          latest_eq := fun hroom => h.latest_eq (Bool.or_eq_false_iff.1 hroom).1 }

/-- A turn leaves the run going on, or is the last one. -/
theorem Underway.step (h : course.Underway trial workers) (turn : Turn) :
    (course.step turn).Underway trial workers ∨ (course.step turn).Concluded trial workers := by
  cases turn with
  | part place =>
      rw [Course.step]
      split
      case h_1 => exact .inl h
      case h_2 farewell hplace => exact .inl (h.part hplace)
  | move move =>
      cases move with
      | work deed =>
          rw [Course.step]
          split
          case isTrue hidle => exact .inl (h.work hidle deed)
          case isFalse => exact .inl h
      | leave failure =>
          cases failure with
          | none =>
              rw [Course.step]
              split
              case isTrue hidle => exact .inl (h.leave hidle)
              case isFalse => exact .inl h
          | some failure =>
              rw [Course.step]
              split
              case isTrue hidle =>
                have hlt := lt_of_hasIdle hidle
                refine .inl { h with farewells_le := ?_, emitted_isFatal := ?_ }
                · rw [List.length_append, List.length_singleton]
                  exact hlt
                · intro other hother
                  rcases List.mem_append.1 hother with hold | hnew
                  · exact h.emitted_isFatal other hold
                  · cases List.mem_singleton.1 hnew
              case isFalse => exact .inl h
      | publish wall => exact .inl (h.publish wall)
      | publishLast wall => exact .inl (h.publishLast wall)
      | report => exact .inl h.report
      | stop => exact .inl h.stop
      | join => exact .inl h.join
      | conclude elapsed => exact h.conclude elapsed

/-- Nothing happens after the last turn. -/
theorem Concluded.step (h : course.Concluded trial workers) (turn : Turn) :
    course.step turn = course := by
  obtain ⟨hfarewells, hworking, hpublishes⟩ := h.deserted
  have hidle : ¬ course.hasIdle := by simp [hasIdle, hworking]
  have hphase := h.phase_eq
  cases turn with
  | part place => rw [Course.step, hfarewells]; rfl
  | move move =>
      cases move with
      | work deed => rw [Course.step, if_neg hidle]
      | leave failure => cases failure <;> rw [Course.step, if_neg hidle]
      | publish wall => simp [Course.step, Course.move, Run.step?, hpublishes]
      | publishLast wall => simp [Course.step, Course.move, Run.step?, hpublishes]
      | report => simp [Course.step, Course.move, Run.step?, hphase]
      | stop => simp [Course.step, Course.move, Run.step?, hphase]
      | join => simp [Course.step, Course.move, Run.step?, hphase]
      | conclude elapsed => simp [Course.step, Course.move, Run.step?, hphase]

theorem underway_or_concluded_after
    (h : course.Underway trial workers ∨ course.Concluded trial workers) (turns : List Turn) :
    (course.after turns).Underway trial workers ∨ (course.after turns).Concluded trial workers := by
  induction turns generalizing course with
  | nil => exact h
  | cons turn turns ih =>
      rcases h with h | h
      · exact ih (h.step turn)
      · refine ih (.inr ?_)
        rw [h.step]
        exact h

/-! ## Getting to the end -/

/-- Some turns lead from one course to another. -/
def Leads (course later : Course) : Prop := ∃ turns, course.after turns = later

theorem Leads.refl (course : Course) : course.Leads course := ⟨[], rfl⟩

theorem Leads.trans {middle later : Course} (hfirst : course.Leads middle)
    (hsecond : middle.Leads later) : course.Leads later := by
  obtain ⟨first, rfl⟩ := hfirst
  obtain ⟨second, rfl⟩ := hsecond
  exact ⟨first ++ second, List.foldl_append ..⟩

/-- How many things a worker still does before it has left, at most. -/
def Farewell.remaining : Farewell → Nat
  | .failed _ => 4
  | .emitted _ => 3
  | .recorded | .met _ => 2
  | .done => 1

end Course

end LinkMeter.Client
