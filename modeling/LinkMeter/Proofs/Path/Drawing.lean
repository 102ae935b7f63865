import LinkMeter.Path.Monitor
import LinkMeter.Proofs.Path.Accounts

/-!
# What is drawn from a script

Discovery and monitoring draw the answers of a script hop by hop, each hop its
own ones in their order.  Of a hop that was probed before nothing else is known
than what is still there for it, so what the rounds of a monitored path come to
for this hop, followed by what they leave, is what the script held for it
(`Draws`).  One probe draws one answer or finds none (`draws_await?`), and the
rest is an induction over the places of a round and over the rounds.
-/

namespace LinkMeter.Path

open Icmp (Finding ProbeId)

/-- The answers that a script has left for a hop. -/
def Script.left (script : Script) (hop : UInt8) : List Attempt :=
  (script.answers.lookup hop).getD []

/-- What some results come to for one hop. -/
def attemptsAt (place : ℕ) (results : List (ℕ × Attempt)) : List Attempt :=
  (results.filter (·.1 = place)).map Prod.snd

/-- What is recorded of some results: everything up to the first fatal failure. -/
def settledOf : List (ℕ × Attempt) → List (ℕ × Finding)
  | [] => []
  | (place, attempt) :: rest =>
    match settle attempt with
    | .error _ => []
    | .ok finding => (place, finding) :: settledOf rest

namespace Script

variable {script rest : Script} {hop : UInt8} {attempt : Attempt}

theorem lookup_map_drop (answers : List (UInt8 × List Attempt)) (hop other : UInt8) :
    (answers.map fun entry =>
        if entry.1 = hop then (entry.1, entry.2.drop 1) else (entry.1, entry.2)).lookup other =
      (answers.lookup other).map fun list => if other = hop then list.drop 1 else list := by
  induction answers with
  | nil => rfl
  | cons entry answers ih =>
      obtain ⟨number, list⟩ := entry
      have hentry : (if number = hop then (number, list.drop 1) else (number, list)) =
          (number, if number = hop then list.drop 1 else list) := by
        split <;> rfl
      rw [List.map_cons, hentry, List.lookup_cons, List.lookup_cons]
      by_cases hsame : other = number
      · rw [hsame, beq_self_eq_true]
        rfl
      · rw [beq_false_of_ne hsame]
        exact ih

/-- The next answer for a hop is the first one that the script holds for it. -/
theorem next?_eq (script : Script) (hop : UInt8) :
    (script.next? hop = none ∧ script.left hop = []) ∨
      ∃ attempt rest, script.next? hop = some (attempt, rest) ∧ rest.calls = script.calls ∧
        script.left hop = attempt :: rest.left hop ∧
        ∀ other ≠ hop, rest.left other = script.left other := by
  rw [next?]
  split
  case h_1 attempt list hlookup =>
    refine .inr ⟨attempt, _, rfl, rfl, ?_, fun other hother => ?_⟩
    · simp only [left, hlookup, Option.getD_some]
      rw [lookup_map_drop, hlookup]
      simp
    · simp only [left]
      rw [lookup_map_drop]
      simp [hother]
  case h_2 hnone =>
    refine .inl ⟨rfl, ?_⟩
    rw [left]
    cases hlookup : script.answers.lookup hop with
    | none => rfl
    | some list =>
        cases list with
        | nil => rfl
        | cons attempt list => exact absurd hlookup (hnone attempt list)

theorem hasProbed_note (script : Script) (probe : ProbeId) (hop : UInt8) :
    (script.note probe).hasProbed hop = (script.hasProbed hop || probe.hop == hop) := by
  simp [hasProbed, note]

end Script

/-! ## One hop -/

/-- Between two states of a script some results came in.  For a hop that was probed before they are
what the script held for it, up to what is left. -/
structure Draws (place : ℕ) (script rest : Script) (results : List (ℕ × Attempt)) : Prop where
  answers_eq : script.left (.ofNat place) =
    attemptsAt place results ++ rest.left (.ofNat place)
  hasProbed_eq : rest.hasProbed (.ofNat place) = true

variable {place : ℕ} {script middle rest : Script}

theorem attemptsAt_append (place : ℕ) (first second : List (ℕ × Attempt)) :
    attemptsAt place (first ++ second) = attemptsAt place first ++ attemptsAt place second := by
  simp [attemptsAt]

theorem draws_nil (hprobed : script.hasProbed (.ofNat place) = true) :
    Draws place script script [] := ⟨rfl, hprobed⟩

theorem Draws.trans {first second : List (ℕ × Attempt)} (hfirst : Draws place script middle first)
    (hsecond : Draws place middle rest second) : Draws place script rest (first ++ second) where
  answers_eq := by
    rw [hfirst.answers_eq, hsecond.answers_eq, attemptsAt_append, List.append_assoc]
  hasProbed_eq := hsecond.hasProbed_eq

theorem ofNat_eq_iff {first second : ℕ} (hfirst : first < 256) (hsecond : second < 256) :
    UInt8.ofNat first = UInt8.ofNat second ↔ first = second := by
  rw [← UInt8.toNat_inj, UInt8.toNat_ofNat', UInt8.toNat_ofNat', Nat.mod_eq_of_lt hfirst,
    Nat.mod_eq_of_lt hsecond]

/-- A probe of some hop draws one answer for it, or comes back with none. -/
theorem draws_await? (hplace : place < 256) (hprobed : script.hasProbed (.ofNat place) = true)
    {other : ℕ} (hother : other < 256) (attempt : UInt8) :
    Draws place script (script.await? ⟨.ofNat other, attempt⟩).2
      ((script.await? ⟨.ofNat other, attempt⟩).1.toList.map (other, ·)) := by
  rw [Script.await?]
  rcases script.next?_eq (.ofNat other) with
      ⟨hnone, hempty⟩ | ⟨answer, drawn, hnext, hcalls, hself, hothers⟩
  · rw [hnone]
    dsimp only
    split
    case isTrue => exact draws_nil hprobed
    case isFalse hfirst =>
      -- the probe is the first one of another hop
      have hne : other ≠ place := by
        rintro rfl
        exact hfirst hprobed
      refine ⟨?_, ?_⟩
      · simp [attemptsAt, hne]
        rfl
      · rw [Script.hasProbed_note, hprobed, Bool.true_or]
  · rw [hnext]
    refine ⟨?_, ?_⟩
    · by_cases hsame : place = other
      · subst hsame
        simp only [attemptsAt, Option.toList_some, List.map_cons, List.map_nil, decide_true,
          List.filter_cons_of_pos, List.filter_nil]
        exact hself
      · have hne : UInt8.ofNat place ≠ UInt8.ofNat other := by
          rwa [Ne, ofNat_eq_iff hplace hother]
        simp only [attemptsAt, Option.toList_some, List.map_cons, List.map_nil]
        rw [List.filter_cons_of_neg (by simpa using Ne.symm hsame)]
        exact (hothers _ hne).symm
    · have hbefore : drawn.hasProbed (.ofNat place) = true := by
        rw [Script.hasProbed, hcalls]
        exact hprobed
      rw [Script.hasProbed_note, hbefore, Bool.true_or]

/-! ## Rounds -/

theorem draws_probeAll (hplace : place < 256) (attempt : UInt8) {places : List ℕ}
    (hplaces : ∀ other ∈ places, other < 256)
    (hprobed : script.hasProbed (.ofNat place) = true) :
    Draws place script (probeAll attempt places script).2 (probeAll attempt places script).1 := by
  induction places generalizing script with
  | nil => exact draws_nil hprobed
  | cons other places ih =>
      obtain ⟨hother, hrest⟩ := List.forall_mem_cons.1 hplaces
      have hfirst := draws_await? hplace hprobed hother attempt
      have hall := hfirst.trans (ih hrest hfirst.hasProbed_eq)
      rw [probeAll]
      dsimp only
      split
      case h_1 answer hanswer =>
        rw [hanswer] at hall
        exact hall
      case h_2 hnone =>
        rw [hnone] at hall
        exact hall

theorem mem_of_mem_probeAll {attempt : UInt8} {places : List ℕ} {result : ℕ × Attempt}
    (hresult : result ∈ (probeAll attempt places script).1) : result.1 ∈ places := by
  induction places generalizing script with
  | nil => exact absurd hresult List.not_mem_nil
  | cons other places ih =>
      rw [probeAll] at hresult
      dsimp only at hresult
      split at hresult
      · rcases List.mem_cons.1 hresult with rfl | hlater
        · exact List.mem_cons_self
        · exact List.mem_cons_of_mem _ (ih hlater)
      · exact List.mem_cons_of_mem _ (ih hresult)

theorem watch_append {names : Names} {first second : List (ℕ × Attempt)} {hops middle : List Hop}
    (hfirst : watch names first hops = (middle, none)) :
    watch names (first ++ second) hops = watch names second middle := by
  induction first generalizing hops with
  | nil =>
      obtain rfl : hops = middle := congrArg Prod.fst hfirst
      rfl
  | cons result first ih =>
      obtain ⟨place, attempt⟩ := result
      rw [watch] at hfirst
      rw [List.cons_append, watch]
      cases hsettle : settle attempt with
      | error failure => simp [hsettle] at hfirst
      | ok finding =>
          rw [hsettle] at hfirst
          exact ih hfirst

/-- Rounds of probes are a list of results, drawn from the script hop by hop. -/
theorem exists_results_roundsFor (names : Names) (fuel : ℕ) (attempt : UInt8) {places : List ℕ}
    (hplaces : ∀ place ∈ places, place < 256) (hops : List Hop) (script : Script) :
    ∃ results,
      watch names results hops =
        ((roundsFor names fuel attempt places hops script).1,
          (roundsFor names fuel attempt places hops script).2.1) ∧
      ∀ place < 256, script.hasProbed (.ofNat place) = true →
        Draws place script (roundsFor names fuel attempt places hops script).2.2 results := by
  induction fuel generalizing attempt places hops script with
  | zero => exact ⟨[], rfl, fun _ _ => draws_nil⟩
  | succ fuel ih =>
      have hdraws : ∀ place < 256, script.hasProbed (.ofNat place) = true →
          Draws place script (probeAll attempt places script).2
            (probeAll attempt places script).1 :=
        fun place hplace => draws_probeAll hplace attempt hplaces
      rw [roundsFor]
      split
      case h_1 rest hround =>
        rw [hround] at hdraws
        exact ⟨[], rfl, hdraws⟩
      case h_2 results rest _ hround =>
        rw [hround] at hdraws
        split
        case h_1 watched failure hwatch => exact ⟨results, hwatch, hdraws⟩
        case h_2 watched hwatch =>
          have hagain : ∀ place ∈ unbroken hops results, place < 256 := by
            intro place hmem
            obtain ⟨result, hresult, rfl⟩ := List.mem_map.1 hmem
            have hprobed : result ∈ (probeAll attempt places script).1 := by
              rw [hround]
              exact List.mem_of_mem_filter hresult
            exact hplaces _ (mem_of_mem_probeAll hprobed)
          obtain ⟨more, hmore, hlater⟩ := ih (attempt + 1) hagain watched rest
          refine ⟨results ++ more, by rw [watch_append hwatch, hmore], ?_⟩
          intro place hplace hprobed
          have hfirst := hdraws place hplace hprobed
          exact hfirst.trans (hlater place hplace hfirst.hasProbed_eq)

/-! ## Discovery -/

theorem length_discoverFrom_le {State : Type} {probe : Prober State} {names : Names}
    {destination : Address} {left : ℕ} {hops found : List Hop} {state rest : State}
    (hdiscover : discoverFrom probe names destination left hops state = (.ok found, rest)) :
    found.length ≤ hops.length + left := by
  induction left generalizing hops state with
  | zero => simp [discoverFrom] at hdiscover
  | succ left ih =>
      rw [discoverFrom] at hdiscover
      dsimp only at hdiscover
      split at hdiscover
      case h_1 => simp at hdiscover
      case h_2 =>
        split at hdiscover
        · obtain ⟨hfound, -⟩ := Prod.mk.inj hdiscover
          obtain rfl := Except.ok.inj hfound
          rw [List.length_append, List.length_singleton]
          omega
        · have hle := ih hdiscover
          rw [List.length_append, List.length_singleton] at hle
          omega

theorem length_discover_le {State : Type} {probe : Prober State} {names : Names}
    {destination : Address} {maxHops : UInt8} {found : List Hop} {state rest : State}
    (hdiscover : discover probe names destination maxHops state = (.ok found, rest)) :
    found.length ≤ 256 := by
  have hle := length_discoverFrom_le hdiscover
  have hlt := maxHops.toNat_lt
  rw [List.length_nil] at hle
  omega

/-- Every hop that is discovered was probed. -/
theorem hasProbed_of_discoverFrom {names : Names} {destination : Address} {left : ℕ}
    {hops found : List Hop}
    (hdiscover : discoverFrom Script.send names destination left hops script = (.ok found, rest))
    (hbefore : ∀ place < hops.length, script.hasProbed (.ofNat place) = true)
    (hplace : place < found.length) : rest.hasProbed (.ofNat place) = true := by
  induction left generalizing hops script with
  | zero => simp [discoverFrom] at hdiscover
  | succ left ih =>
      have hprobed : ∀ place < hops.length + 1,
          (Script.send ⟨UInt8.ofNat hops.length, 0⟩ script).2.hasProbed (.ofNat place) = true := by
        intro place hplace
        have hnote : ∀ later : Script, later.calls = script.calls →
            (later.note ⟨UInt8.ofNat hops.length, 0⟩).hasProbed (.ofNat place) = true := by
          intro later hcalls
          rw [Script.hasProbed_note, Bool.or_eq_true, beq_iff_eq]
          rcases Nat.lt_or_eq_of_le (Nat.le_of_lt_succ hplace) with hlt | rfl
          · refine .inl ?_
            rw [Script.hasProbed, hcalls]
            exact hbefore place hlt
          · exact .inr rfl
        rw [Script.send]
        rcases script.next?_eq (UInt8.ofNat hops.length) with
            ⟨hnone, -⟩ | ⟨answer, drawn, hnext, hcalls, -⟩
        · rw [hnone]
          exact hnote script rfl
        · rw [hnext]
          exact hnote drawn hcalls
      rw [discoverFrom] at hdiscover
      dsimp only at hdiscover
      split at hdiscover
      case h_1 => simp at hdiscover
      case h_2 =>
        split at hdiscover
        · obtain ⟨hfound, hrest⟩ := Prod.mk.inj hdiscover
          obtain rfl := Except.ok.inj hfound
          obtain rfl := hrest
          rw [List.length_append, List.length_singleton] at hplace
          exact hprobed place hplace
        · refine ih hdiscover ?_
          rw [List.length_append, List.length_singleton]
          exact hprobed

end LinkMeter.Path
