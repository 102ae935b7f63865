import LinkMeter.Proofs.Client.Course
import LinkMeter.Proofs.Path.Drawing
import LinkMeter.Proofs.Trial.Pings

/-!
# The account of a ping run

A worker that pings adds one sample for each probe that comes back, in their
order, until a probe fails or none comes back any more (`Client.deeds_pingWork`).
Its probes are numbered in eight bits, and nothing depends on these numbers, so
there can be any number of pings.

A turn of a run does some acts to the trial (`Course.acts`), and only two of them
concern the buffer: the deeds of the worker and the failures of workers that
leave add samples, and the publisher takes them all.  What the publisher
publishes therefore tells the pings of the run batch by batch
(`Client.pings_accounted`).
-/

namespace LinkMeter

open Icmp (Finding ProbeId)
open Pacing (Instant)

/-! ## What the probes of a hop come to -/

namespace Path

/-- What probes find until one of them fails or does not come back. -/
def findings : List Attempt → List Finding
  | .ok finding :: rest => finding :: findings rest
  | .error _ :: _ | [] => []

/-- The failure that ends the probing. -/
def firstFailure : List Attempt → Option Failure
  | .ok _ :: rest => firstFailure rest
  | .error failure :: _ => some failure
  | [] => none

namespace Script

variable {script : Script} {attempt : Attempt} {rest : List Attempt}

/-- What the probes of a hop come to that come back, one after the other: the first of them does
even if there are no answers. -/
def attempts (script : Script) (hop : UInt8) : List Attempt :=
  if (script.left hop).isEmpty && !script.hasProbed hop then [.ok .lost] else script.left hop

theorem attempts_note (script : Script) (probe : ProbeId) :
    (script.note probe).attempts probe.hop = script.left probe.hop := by
  rw [attempts, hasProbed_note, beq_self_eq_true, Bool.or_true, Bool.not_true, Bool.and_false]
  rfl

theorem length_left_le (script : Script) (hop : UInt8) :
    (script.left hop).length ≤ script.size := by
  rw [left, size]
  induction script.answers with
  | nil => exact Nat.le_refl 0
  | cons entry answers ih =>
    obtain ⟨number, list⟩ := entry
    rw [List.map_cons, List.foldr_cons, List.lookup_cons]
    split
    · exact Nat.le_add_right _ _
    · exact ih.trans (Nat.le_add_left _ _)

theorem next?_of_nil {hop : UInt8} (hleft : script.left hop = []) : script.next? hop = none := by
  rcases script.next?_eq hop with ⟨hnone, -⟩ | ⟨attempt, later, -, -, hcons, -⟩
  · exact hnone
  · rw [hleft] at hcons
    cases hcons

theorem next?_of_cons {hop : UInt8} (hleft : script.left hop = attempt :: rest) :
    ∃ later, script.next? hop = some (attempt, later) ∧ later.left hop = rest := by
  rcases script.next?_eq hop with ⟨-, hnil⟩ | ⟨first, later, hnext, -, hcons, -⟩
  · rw [hleft] at hnil
    cases hnil
  · rw [hleft] at hcons
    obtain ⟨rfl, rfl⟩ := List.cons.inj hcons
    exact ⟨later, hnext, rfl⟩

theorem await?_of_nil (probe : ProbeId) (hnone : script.attempts probe.hop = []) :
    script.await? probe = (none, script) := by
  rw [attempts] at hnone
  split at hnone
  case isTrue => cases hnone
  case isFalse hprobed =>
    have hhas : script.hasProbed probe.hop = true := by simpa [hnone] using hprobed
    simp [await?, next?_of_nil hnone, hhas]

/-- A probe that comes back uses up what it came to. -/
theorem await?_of_cons (probe : ProbeId) (hcons : script.attempts probe.hop = attempt :: rest) :
    ∃ later, script.await? probe = (some attempt, later) ∧ later.attempts probe.hop = rest := by
  rw [attempts] at hcons
  split at hcons
  case isTrue hfirst =>
    obtain ⟨hleft, hnew⟩ : script.left probe.hop = [] ∧ script.hasProbed probe.hop = false := by
      simpa using hfirst
    obtain ⟨rfl, rfl⟩ := List.cons.inj hcons
    refine ⟨script.note probe, ?_, (script.attempts_note probe).trans hleft⟩
    simp [await?, next?_of_nil hleft, hnew]
  case isFalse =>
    obtain ⟨later, hnext, hleft⟩ := next?_of_cons hcons
    refine ⟨later.note probe, ?_, (later.attempts_note probe).trans hleft⟩
    simp [await?, hnext]

/-- No more probes come back than there are answers, and one. -/
theorem length_attempts_le (script : Script) (hop : UInt8) :
    (script.attempts hop).length ≤ script.size + 1 := by
  rw [attempts]
  split
  · simp
  · exact (script.length_left_le hop).trans (Nat.le_succ _)

end Script

end Path

/-! ## The worker -/

namespace Client

open LinkMeter.Path (Script)

variable {destination : Address} {script : Script}

/-- The deed of a worker that pings, for what a probe found. -/
def pingDeed (destination : Address) (finding : Finding) : Deed :=
  .add (.pingAttempt (pingRoundTrip? destination finding))

theorem deeds_pingFrom {fuel : ℕ} (hfuel : (script.attempts pingHop).length < fuel)
    (attempt : UInt8) :
    (pingFrom destination fuel attempt script).1.deeds =
        (Path.findings (script.attempts pingHop)).map (pingDeed destination) ∧
      (pingFrom destination fuel attempt script).1.parting =
        match Path.firstFailure (script.attempts pingHop) with
        | some failure => .fails failure
        | none => .stays := by
  induction fuel generalizing attempt script with
  | zero => cases hfuel
  | succ fuel ih =>
    rw [pingFrom]
    cases hattempts : script.attempts pingHop with
    | nil =>
      rw [Script.await?_of_nil ⟨pingHop, attempt⟩ hattempts]
      exact ⟨rfl, rfl⟩
    | cons first rest =>
      obtain ⟨later, hawait, hlater⟩ :=
        Script.await?_of_cons ⟨pingHop, attempt⟩ hattempts
      rw [hawait]
      cases first with
      | error failure => exact ⟨rfl, rfl⟩
      | ok finding =>
        have hless : (later.attempts pingHop).length < fuel := by
          rw [hattempts, List.length_cons] at hfuel
          rw [hlater]
          omega
        have hrest := ih hless (attempt + 1)
        rw [hlater] at hrest
        exact ⟨congrArg (pingDeed destination finding :: ·) hrest.1, hrest.2⟩

theorem deeds_pingWork (destination : Address) (script : Script) :
    (pingWork destination script).1.deeds =
        (Path.findings (script.attempts pingHop)).map (pingDeed destination) ∧
      (pingWork destination script).1.parting =
        match Path.firstFailure (script.attempts pingHop) with
        | some failure => .fails failure
        | none => .stays :=
  deeds_pingFrom (Nat.lt_succ_of_le (script.length_attempts_le pingHop)) 0

/-! ## The acts of a turn -/

namespace Course

/-- What a turn does to the trial. -/
def acts (course : Course) : Turn → List Trial.Act
  | .move (.work deed) => if course.hasIdle then [deed.act] else []
  | .move (.publish wall) => if course.run.publishes then [.tick wall, .publish wall] else []
  | .move (.publishLast wall) =>
    if course.run.publishes && course.run.trial.isDone then [.publish wall] else []
  | .move .report => if course.run.phase = .over then [] else [.receive]
  | .move .stop =>
    if course.run.phase = .measuring && course.run.trial.reducer.isNone then [.finish] else []
  | .move .join => if course.run.phase = .stopping && course.run.working = 0 then [.finish] else []
  | .move (.conclude elapsed) =>
    if (course.run.step? (.conclude elapsed)).isSome then [.drain, .close] else []
  | .move (.leave _) => []
  | .part place =>
    match course.farewells[place]? with
    | some (.failed failure) =>
      if failure.isFatal then [.emit (.ofFailure failure)] else []
    | some .recorded => [.finish]
    | some (.met failure) => [.add (.ofFailure failure)]
    | some (.emitted _) | some .done | none => []

/-- The deed that a worker does in a turn. -/
def worked (course : Course) : Turn → List Deed
  | .move (.work deed) => if course.hasIdle then [deed] else []
  | _ => []

/-- What some turns do to the trial. -/
def log (course : Course) : List Turn → List Trial.Act
  | [] => []
  | turn :: turns => course.acts turn ++ (course.step turn).log turns

/-- The deeds that workers do in the course of some turns. -/
def deeds (course : Course) : List Turn → List Deed
  | [] => []
  | turn :: turns => course.worked turn ++ (course.step turn).deeds turns

/-- The outcomes that are published in the course of some turns. -/
def published (course : Course) (turns : List Turn) : List Outcome :=
  course.run.trial.published (course.log turns)

variable {course : Course}

theorem trial_move_work (hidle : course.hasIdle = true) (deed : Deed) :
    (course.move (.work deed)).run.trial = course.run.trial.perform deed.act := by
  have hworking : course.run.working ≠ 0 := by
    have hlt := lt_of_hasIdle hidle
    omega
  rw [move, Run.step?, if_neg hworking, Deed.apply_eq]

theorem trial_move_leave (course : Course) :
    (course.move (.leave none)).run.trial = course.run.trial := by
  rw [move, Run.step?]
  by_cases hworking : course.run.working = 0
  · rw [if_pos hworking]
  · rw [if_neg hworking]
    rfl

theorem trial_move_publish (course : Course) (wall : Instant) :
    (course.move (.publish wall)).run.trial =
      (course.acts (.move (.publish wall))).foldl Trial.perform course.run.trial := by
  rw [move, Run.step?, acts]
  cases course.run.publishes with
  | false => rfl
  | true =>
    obtain ⟨publishes, hpublish⟩ := publish_eq course.run wall
    rw [if_pos rfl, hpublish]
    rfl

theorem trial_move_publishLast (course : Course) (wall : Instant) :
    (course.move (.publishLast wall)).run.trial =
      (course.acts (.move (.publishLast wall))).foldl Trial.perform course.run.trial := by
  rw [move, Run.step?, acts]
  cases course.run.publishes && course.run.trial.isDone <;> rfl

theorem trial_move_report (course : Course) : (course.move .report).run.trial =
    (course.acts (.move .report)).foldl Trial.perform course.run.trial := by
  rw [move, Run.step?, acts]
  by_cases hphase : course.run.phase = .over
  · rw [if_pos hphase, if_pos hphase]
    rfl
  · rw [if_neg hphase, if_neg hphase]
    cases hqueue : course.run.trial.queue with
    | nil => simp [Trial.perform, Trial.receive, hqueue]
    | cons outcome rest => simp [Trial.perform, Trial.receive, hqueue, Run.passOn]

theorem trial_move_stop (course : Course) : (course.move .stop).run.trial =
    (course.acts (.move .stop)).foldl Trial.perform course.run.trial := by
  rw [move, Run.step?, acts]
  by_cases hphase : course.run.phase = .measuring
  · cases course.run.trial.reducer.isNone <;> simp [hphase, Trial.perform]
  · simp [hphase]

theorem trial_move_join (course : Course) : (course.move .join).run.trial =
    (course.acts (.move .join)).foldl Trial.perform course.run.trial := by
  rw [move, Run.step?, acts]
  cases decide (course.run.phase = .stopping) && decide (course.run.working = 0) <;> rfl

theorem trial_move_conclude (course : Course) (elapsed : Span) :
    (course.move (.conclude elapsed)).run.trial =
      (course.acts (.move (.conclude elapsed))).foldl Trial.perform course.run.trial := by
  rw [move, acts]
  cases hstep : course.run.step? (.conclude elapsed) with
  | none => rfl
  | some run =>
    rw [Run.step?] at hstep
    split at hstep
    · obtain ⟨summary, -, rfl⟩ := Option.map_eq_some_iff.1 hstep
      rfl
    · cases hstep

theorem trial_step (course : Course) (turn : Turn) :
    (course.step turn).run.trial = (course.acts turn).foldl Trial.perform course.run.trial := by
  cases turn with
  | part place =>
    rw [step, acts]
    cases course.farewells[place]? with
    | none => rfl
    | some farewell =>
      cases farewell with
      | failed failure =>
        dsimp only
        rw [part]
        split
        · rfl
        · split <;> rfl
      | emitted failure | recorded | met failure | done => rfl
  | move move =>
    cases move with
    | work deed =>
      rw [step, acts]
      split
      case isTrue hidle => exact trial_move_work hidle deed
      case isFalse => rfl
    | leave failure =>
      cases failure with
      | none =>
        rw [step]
        split
        · exact course.trial_move_leave
        · rfl
      | some failure =>
        rw [step]
        split <;> rfl
    | publish wall => exact course.trial_move_publish wall
    | publishLast wall => exact course.trial_move_publishLast wall
    | report => exact course.trial_move_report
    | stop => exact course.trial_move_stop
    | join => exact course.trial_move_join
    | conclude elapsed => exact course.trial_move_conclude elapsed

theorem trial_after (course : Course) (turns : List Turn) :
    (course.after turns).run.trial = (course.log turns).foldl Trial.perform course.run.trial := by
  induction turns generalizing course with
  | nil => rfl
  | cons turn turns ih =>
    rw [log, List.foldl_append, ← trial_step]
    exact ih (course.step turn)

/-- A turn does at most one act, or two of which the first leaves the buffer alone. -/
theorem acts_cases (course : Course) (turn : Turn) :
    (course.acts turn).length ≤ 1 ∨ ∃ first second, course.acts turn = [first, second] ∧
      ∀ trial : Trial, (trial.perform first).buffered = trial.buffered := by
  cases turn with
  | part place =>
    left
    rw [acts]
    split
    case h_1 => split <;> simp
    all_goals simp
  | move move =>
    cases move with
    | leave failure => exact .inl (Nat.zero_le 1)
    | work deed | publishLast wall | report | stop | join =>
      left
      rw [acts]
      split <;> simp
    | publish wall =>
      rw [acts]
      split
      case isTrue => exact .inr ⟨.tick wall, .publish wall, rfl, fun _ => rfl⟩
      case isFalse => exact .inl (Nat.zero_le 1)
    | conclude elapsed =>
      rw [acts]
      split
      case isTrue => exact .inr ⟨.drain, .close, rfl, fun _ => rfl⟩
      case isFalse => exact .inl (Nat.zero_le 1)

/-- In the middle of a turn the buffer is still what it was before. -/
theorem buffered_of_prefix_acts {course : Course} {turn : Turn} {earlier : List Trial.Act}
    (hearlier : earlier <+: course.acts turn) : earlier = course.acts turn ∨
      (earlier.foldl Trial.perform course.run.trial).buffered = course.run.trial.buffered := by
  rcases course.acts_cases turn with hone | ⟨first, second, hacts, hquiet⟩
  · rcases earlier with _ | ⟨act, rest⟩
    · exact .inr rfl
    · left
      refine hearlier.eq_of_length_le ?_
      rw [List.length_cons]
      omega
  · rw [hacts] at hearlier ⊢
    rcases List.prefix_cons_iff.1 hearlier with rfl | ⟨rest, rfl, hrest⟩
    · exact .inr rfl
    · rcases List.prefix_cons_iff.1 hrest with rfl | ⟨none, rfl, hnone⟩
      · exact .inr (hquiet course.run.trial)
      · rw [List.prefix_nil.1 hnone]
        exact .inl rfl

/-- So the buffer never holds anything in the middle of a turn that it does not hold between
turns. -/
theorem exists_prefix_turns {course : Course} {turns : List Turn} {earlier : List Trial.Act}
    (hearlier : earlier <+: course.log turns) : ∃ before, before <+: turns ∧
      (earlier.foldl Trial.perform course.run.trial).buffered =
        (course.after before).run.trial.buffered := by
  induction turns generalizing course earlier with
  | nil => exact ⟨[], List.nil_prefix, by rw [List.prefix_nil.1 hearlier]; rfl⟩
  | cons turn turns ih =>
    rw [log] at hearlier
    rcases List.prefix_or_prefix_of_prefix hearlier (List.prefix_append _ _) with hwithin | hbeyond
    · rcases buffered_of_prefix_acts hwithin with rfl | hbuffered
      · exact ⟨[turn], List.cons_prefix_cons.2 ⟨rfl, List.nil_prefix⟩,
          congrArg Trial.buffered (course.trial_step turn).symm⟩
      · exact ⟨[], List.nil_prefix, hbuffered⟩
    · obtain ⟨rest, rfl⟩ := hbeyond
      obtain ⟨before, hbefore, hbuffered⟩ := ih ((List.prefix_append_right_inj _).1 hearlier)
      refine ⟨turn :: before, List.cons_prefix_cons.2 ⟨rfl, hbefore⟩, ?_⟩
      rw [List.foldl_append, ← trial_step]
      exact hbuffered

/-- A turn adds what a worker adds in it, or the failure of one that leaves. -/
theorem added_acts (course : Course) (turn : Turn) :
    Trial.added (course.acts turn) = Trial.added ((course.worked turn).map Deed.act) ∨
      course.worked turn = [] ∧
        ∃ failure, Trial.added (course.acts turn) = [.ofFailure failure] := by
  cases turn with
  | part place =>
    rw [acts]
    split
    case h_3 failure _ => exact .inr ⟨rfl, failure, rfl⟩
    case h_1 => left; split <;> rfl
    all_goals exact .inl rfl
  | move move =>
    left
    cases move with
    | work deed =>
      rw [acts, worked]
      split <;> rfl
    | leave failure => rfl
    | publish wall | publishLast wall | report | stop | join | conclude elapsed =>
      rw [acts]
      split <;> rfl

/-- Where workers add pings alone, only pings and failures are added. -/
theorem samples_log {course : Course} {turns : List Turn}
    (hpings : ∀ deed ∈ course.deeds turns, ∃ attempt, deed = .add (.pingAttempt attempt)) :
    (∀ outcome ∈ Trial.added (course.log turns), Ping.IsSample outcome) ∧
      Ping.attemptsOf (Trial.added (course.log turns)) =
        Ping.attemptsOf (Trial.added ((course.deeds turns).map Deed.act)) := by
  induction turns generalizing course with
  | nil => exact ⟨fun outcome hmem => absurd hmem List.not_mem_nil, rfl⟩
  | cons turn turns ih =>
    obtain ⟨hsamples, hattempts⟩ := ih fun deed hdeed => hpings deed (List.mem_append_right _ hdeed)
    rw [log, deeds, List.map_append, Trial.added_append, Trial.added_append,
      Ping.attemptsOf_append, Ping.attemptsOf_append, hattempts]
    rcases course.added_acts turn with hsame | ⟨hnone, failure, hfailure⟩
    · refine ⟨fun outcome hmem => ?_, by rw [hsame]⟩
      rcases List.mem_append.1 hmem with hnow | hlater
      · rw [hsame] at hnow
        obtain ⟨act, hact, hadds⟩ := List.mem_filterMap.1 hnow
        obtain ⟨deed, hdeed, rfl⟩ := List.mem_map.1 hact
        obtain ⟨attempt, rfl⟩ := hpings deed (List.mem_append_left _ hdeed)
        cases hadds
        exact .inl ⟨attempt, rfl⟩
      · exact hsamples outcome hlater
    · refine ⟨fun outcome hmem => ?_, by rw [hfailure, hnone]; rfl⟩
      rcases List.mem_append.1 hmem with hnow | hlater
      · rw [hfailure, List.mem_singleton] at hnow
        exact .inr ⟨failure.message, hnow⟩
      · exact hsamples outcome hlater

/-- Whatever the workers that ping have done by then, what was published tells it batch by batch,
up to what is still buffered. -/
theorem exists_segments {course : Course} {turns : List Turn}
    (hreducer : course.run.trial.reducer = some .ping) (hempty : course.run.trial.buffered = [])
    {attempts : List (Option Span)}
    (hdeeds : course.deeds turns = attempts.map fun attempt => .add (.pingAttempt attempt))
    (hfew : ∀ earlier, earlier <+: turns →
      (course.after earlier).run.trial.buffered.length < 2 ^ 64) :
    ∃ segments : List (List (Option Span)),
      segments.Forall₂ Ping.Tells (Reducer.pingCounts (course.published turns)) ∧
        segments.flatten ++ Ping.attemptsOf (course.after turns).run.trial.buffered = attempts := by
  have hpings : ∀ deed ∈ course.deeds turns, ∃ attempt, deed = .add (.pingAttempt attempt) := by
    intro deed hdeed
    rw [hdeeds] at hdeed
    obtain ⟨attempt, -, rfl⟩ := List.mem_map.1 hdeed
    exact ⟨attempt, rfl⟩
  obtain ⟨hsamples, hattempts⟩ := samples_log hpings
  have hall : Ping.attemptsOf (Trial.added ((course.deeds turns).map Deed.act)) = attempts := by
    have hadded : Trial.added ((course.deeds turns).map Deed.act) =
        attempts.map .pingAttempt := by
      rw [hdeeds, List.map_map, Trial.added, List.filterMap_map]
      exact congrFun List.filterMap_eq_map attempts
    rw [hadded, Ping.attemptsOf_map]
  rw [hall] at hattempts
  have hstart : course.run.trial.buffered ++ Trial.added (course.log turns) =
      Trial.added (course.log turns) := by
    rw [hempty, List.nil_append]
  rw [published, trial_after, ← hattempts, ← hstart]
  refine Trial.exists_segments_published hreducer (hstart.symm ▸ hsamples) ?_
  intro earlier hearlier
  obtain ⟨before, hbefore, hbuffered⟩ := exists_prefix_turns hearlier
  rw [hbuffered]
  exact hfew before hbefore

end Course

/-! ## The account -/

theorem isSome_pingRoundTrip? (destination : Address) (finding : Finding) :
    (pingRoundTrip? destination finding).isSome = finding.isReplyFrom destination := by
  rw [pingRoundTrip?]
  cases finding with
  | lost => rfl
  | answered answer roundTrip peer =>
    cases hreply : Finding.isReplyFrom destination (.answered answer roundTrip peer) <;> rfl

/-- A run of a trial that pings, with workers that ping a destination: however they are stopped,
fail and are served, the deeds that they have done are the pings of the findings so far.

Each published count reports one batch of these pings, and the batches are all pings in their order,
up to those that are still buffered. When nothing is buffered, the published counts add up to the
pings that came back: as many were sent, those were received to which the destination itself
replied, and the others were lost. There can be any number of pings: a counter has to hold no more
than the buffer does. -/
theorem pings_accounted (destination : Address) (script : Script) (workers : ℕ) (trial : Trial)
    (turns : List Turn) (hreducer : trial.reducer = some .ping) (hempty : trial.buffered = [])
    (hworked : (Course.start trial workers).deeds turns <+: (pingWork destination script).1.deeds)
    (hfew : ∀ earlier, earlier <+: turns →
      ((Course.start trial workers).after earlier).run.trial.buffered.length < 2 ^ 64) :
    let course := Course.start trial workers
    let counts := Reducer.pingCounts (course.published turns)
    ∃ (completed : List Finding) (segments : List (List (Option Span)))
        (rest : List (Option Span)),
      completed <+: Path.findings (script.attempts pingHop) ∧
      course.deeds turns = completed.map (fun finding =>
        .add (.pingAttempt (pingRoundTrip? destination finding))) ∧
      segments.flatten ++ rest = completed.map (pingRoundTrip? destination) ∧
      segments.Forall₂ Ping.Reports counts ∧
      ((course.after turns).run.trial.buffered = [] → rest = [] ∧
        (counts.map (·.sent.toNat)).sum = completed.length ∧
        (counts.map (·.received.toNat)).sum =
          completed.countP (fun finding => finding.isReplyFrom destination) ∧
        (counts.map (·.lost.toNat)).sum =
          completed.countP (fun finding => !finding.isReplyFrom destination)) := by
  intro course counts
  rw [(deeds_pingWork destination script).1, List.prefix_map_iff] at hworked
  obtain ⟨completed, hcompleted, hdeeds⟩ := hworked
  have hattempts : course.deeds turns =
      (completed.map (pingRoundTrip? destination)).map fun attempt =>
        .add (.pingAttempt attempt) := by
    rw [List.map_map]
    exact hdeeds
  obtain ⟨segments, htells, hflatten⟩ := Course.exists_segments hreducer hempty hattempts hfew
  have hreports : segments.Forall₂ Ping.Reports counts := htells.imp fun _ _ h => h.reports
  refine ⟨completed, segments, _, hcompleted, hdeeds, hflatten, hreports, fun hflushed => ?_⟩
  obtain ⟨hsent, hreceived, hlost⟩ := Ping.sums_of_reports hreports
  rw [hflushed, Ping.attemptsOf_nil, List.append_nil] at hflatten
  rw [hflatten] at hsent hreceived hlost
  refine ⟨by rw [hflushed]; rfl, hsent.trans (List.length_map _), hreceived.trans ?_,
    hlost.trans ?_⟩
  · rw [List.countP_map]
    exact List.countP_congr fun finding _ => by
      rw [Function.comp_apply, isSome_pingRoundTrip?]
  · rw [List.countP_map]
    exact List.countP_congr fun finding _ => by
      rw [Function.comp_apply, ← Option.not_isSome, isSome_pingRoundTrip?]

/-- Five probes, of which two are answered by the destination, before one that fails: two batches
with pings, and one that holds the failure alone. -/
theorem pings_accounted_five :
    let reply (millis : UInt64) : Path.Attempt :=
      .ok (.answered .reply (.ofMillis millis) .loopback)
    let router : Path.Attempt :=
      .ok (.answered .timeExceeded (.ofMillis 1) (.v4 ⟨10, 0, 0, 1⟩))
    let broken : Failure := .connection "reset"
    let script : Script :=
      { answers := [(pingHop, [reply 3, .ok .lost, router, reply 5, .ok .lost, .error broken])] }
    let trial := Trial.start 0 ⟨.icmp, .ping⟩ ⟨.loopback, 0, 0⟩ {} (some .ping) 1_000_000_000
    let work := (pingWork .loopback script).1
    let pings (first count : ℕ) : List Turn :=
      ((work.deeds.drop first).take count).map fun deed => .move (.work deed)
    let turns := pings 0 3 ++ [.move (.publish 0)] ++ pings 3 2 ++
      [.move (.publish 1), .move (.leave (some broken)), .part 0, .part 0, .move (.publish 2)]
    let course := Course.start trial 1
    let counts := Reducer.pingCounts (course.published turns)
    work.parting = .fails broken ∧ course.deeds turns <+: work.deeds ∧
      (course.after turns).run.trial.latest = some (.failed broken.message) ∧
      (counts.map (·.sent.toNat)).sum = 5 ∧ (counts.map (·.received.toNat)).sum = 2 ∧
      (counts.map (·.lost.toNat)).sum = 3 ∧ counts.map (·.sent) = [3, 2] := by
  intro reply router broken script trial work pings turns course counts
  have hworked : course.deeds turns = work.deeds := by decide +kernel
  have hfive : work.deeds.length = 5 := by decide +kernel
  have hfew : ∀ earlier, earlier <+: turns →
      (course.after earlier).run.trial.buffered.length < 2 ^ 64 := by
    simp only [← List.mem_inits]
    decide +kernel
  obtain ⟨completed, segments, rest, hcompleted, hdeeds, -, -, hsums⟩ :=
    pings_accounted .loopback script 1 trial turns rfl rfl (hworked ▸ List.prefix_refl _) hfew
  obtain ⟨-, hsent, hreceived, hlost⟩ := hsums (by decide +kernel)
  have hlength : completed.length = 5 := by
    rw [← hfive, ← hworked, hdeeds, List.length_map]
  have hall : completed = Path.findings (script.attempts pingHop) :=
    hcompleted.eq_of_length (hlength.trans (by decide +kernel))
  refine ⟨by decide +kernel, hworked ▸ List.prefix_refl _, by decide +kernel,
    hsent.trans hlength, hreceived.trans ?_, hlost.trans ?_, by decide +kernel⟩
  · rw [hall]
    decide +kernel
  · rw [hall]
    decide +kernel

end Client

end LinkMeter
