import LinkMeter.Outcome.Json
import LinkMeter.Proofs.Json.Records
import LinkMeter.Settings.Json

/-!
# Outcomes and settings that are written and read

Every outcome and all settings are read back from their text
(`documents_read_back`).  Each record is read back from its own value
(`Outcome.ofJson?_toJson`, `Settings.ofJson?_toJson`), and the value, which
denotes data, from its text (`Json.parse_text`).

Two members may be left out, the reason of an outcome and the round trips of a
count of pings.  What their absence is read as is what they are left out for.
-/

namespace LinkMeter

open Json (bind_of_eq bind_required? bind_optional?)

theorem LatencyStats.ofJson?_toJson (stats : LatencyStats) :
    ofJson? stats.toJson = some stats := by
  rw [ofJson?, toJson, bind_of_eq (Json.record?_zip (by decide) rfl false)]
  dsimp only [List.map]
  rw [bind_required? (Json.asUInt64?_ofUInt64 _)]
  iterate 10 rw [bind_required? (Span.ofJson?_toJson _)]
  rfl

theorem LatencyStats.data_toJson (stats : LatencyStats) : stats.toJson.Data :=
  Json.data_zip (by simp)

theorem Hop.ofJson?_toJson (hop : Hop) : ofJson? hop.toJson = some hop := by
  rw [ofJson?, toJson, bind_of_eq (Json.record?_zip (by decide) rfl false)]
  dsimp only [List.map]
  rw [bind_optional? Address.ofJson?_toJson (fun _ => nofun)]
  iterate 3 rw [bind_required? (Json.asUInt32?_ofUInt32 _)]
  iterate 5 rw [bind_required? (Span.ofJson?_toJson _)]
  iterate 2 rw [bind_required? (Json.asString?_string _)]
  rfl

theorem Hop.data_toJson (hop : Hop) : hop.toJson.Data :=
  Json.data_zip (by simp [Json.data_ofNullable Address.data_toJson])

namespace PingCount

variable (count : PingCount)

/-- The fields of a count; the round trips are left out if there are none. -/
def fields : List (String × Option Json) :=
  [("sent", some (.ofUInt64 count.sent)), ("received", some (.ofUInt64 count.received)),
    ("lost", some (.ofUInt64 count.lost)),
    ("rtts", if count.roundTrips = [] then none
      else some (.array (count.roundTrips.map Span.toJson))),
    ("latency", some (.ofNullable LatencyStats.toJson count.latency))]

theorem toJson_eq : count.toJson = .object (Json.present count.fields) := by
  unfold toJson fields
  cases count.roundTrips <;> rfl

theorem withDefault?_roundTrips :
    Json.withDefault? [] (Json.asList? Span.ofJson?) (if count.roundTrips = [] then none
      else some (.array (count.roundTrips.map Span.toJson))) = some count.roundTrips := by
  split
  case isTrue hnone => rw [hnone, Json.withDefault?]
  case isFalse => exact Json.asList?_map Span.ofJson?_toJson count.roundTrips

theorem ofJson?_toJson : ofJson? count.toJson = some count := by
  have hnames : count.fields.map Prod.fst = ["sent", "received", "lost", "rtts", "latency"] := rfl
  rw [ofJson?, toJson_eq, bind_of_eq (Json.record?_present hnames (by decide) false)]
  dsimp only [fields, List.map]
  iterate 3 rw [bind_required? (Json.asUInt64?_ofUInt64 _)]
  -- a list that was left out is read as the empty one
  rw [bind_of_eq count.withDefault?_roundTrips,
    bind_optional? LatencyStats.ofJson?_toJson (fun _ => nofun)]
  rfl

theorem data_toJson : count.toJson.Data := by
  have hroundTrips := Json.data_map Span.data_toJson count.roundTrips
  have hlatency := Json.data_ofNullable LatencyStats.data_toJson count.latency
  rw [toJson_eq]
  refine Json.data_present ?_
  unfold fields
  split
  · simp [hlatency]
  · simpa [hlatency] using hroundTrips

/-- The round trips are written unless there are none. -/
theorem member?_roundTrips : count.toJson.member? "rtts" =
    if count.roundTrips = [] then none
    else some (.array (count.roundTrips.map Span.toJson)) := by
  have hnodup : (count.fields.map Prod.fst).Nodup :=
    show ["sent", "received", "lost", "rtts", "latency"].Nodup by decide
  rw [toJson_eq]
  exact Json.member?_present hnodup (by simp [fields])

end PingCount

namespace Report

theorem counters?_counters {names : List String} {values : List UInt64} (hnodup : names.Nodup)
    (hlength : names.length = values.length) :
    counters? names (counters names values) = some values := by
  have hall : names.length = (values.map Json.ofUInt64).length := by
    rw [List.length_map, hlength]
  have hvalues : ∀ value ∈ values,
      Json.required? Json.asUInt64? ((some ∘ Json.ofUInt64) value) = some value :=
    fun value _ => Json.asUInt64?_ofUInt64 value
  rw [counters?, counters, bind_of_eq (Json.record?_zip hnodup hall false), List.map_map,
    Json.mapM_map hvalues, List.map_id']

theorem ofJson?_toJson (report : Report) : ofJson? report.toJson = some report := by
  cases report with
  | bandwidth bytes rate =>
      exact bind_of_eq (counters?_counters (by decide : bandwidthNames.Nodup) rfl) _
  | connections count rate =>
      exact bind_of_eq (counters?_counters (by decide : connectionNames.Nodup) rfl) _
  | packets count bytes packetRate bitRate =>
      exact bind_of_eq (counters?_counters (by decide : packetNames.Nodup) rfl) _
  | roundTrips samples =>
      exact congrArg (Option.map roundTrips) (Json.asList?_map Span.ofJson?_toJson samples)
  | latency stats => exact congrArg (Option.map latency) stats.ofJson?_toJson
  | ping count => exact congrArg (Option.map ping) count.ofJson?_toJson
  | path hops => exact congrArg (Option.map path) (Json.asList?_map Hop.ofJson?_toJson hops)
  | server bytes count bitRate packetRate =>
      exact bind_of_eq (counters?_counters (by decide : serverNames.Nodup) rfl) _
  | nothing => rfl

theorem data_counters (names : List String) (values : List UInt64) :
    (counters names values).Data :=
  Json.data_zip fun value hvalue => by
    obtain ⟨counter, -, rfl⟩ := List.mem_map.1 hvalue
    exact Json.data_ofUInt64 counter

theorem data_toJson (report : Report) : report.toJson.Data := by
  cases report with
  | bandwidth | connections | packets | server => exact Json.data_choice (data_counters _ _) _
  | roundTrips samples => exact Json.data_choice (Json.data_map Span.data_toJson samples) _
  | latency stats => exact Json.data_choice stats.data_toJson _
  | ping count => exact Json.data_choice count.data_toJson _
  | path hops => exact Json.data_choice (Json.data_map Hop.data_toJson hops) _
  | nothing => exact .string _

end Report

namespace Outcome

variable (outcome : Outcome)

/-- The fields of an outcome; the reason is left out if there is none. -/
def fields : List (String × Option Json) :=
  [("success", some (.bool outcome.success)), ("error", outcome.error.map .string),
    ("body", some outcome.report.toJson)]

theorem toJson_eq : outcome.toJson = .object (Json.present outcome.fields) := by
  unfold toJson fields
  cases outcome.error <;> rfl

theorem optional?_error :
    Json.optional? Json.asString? (outcome.error.map .string) = some outcome.error := by
  cases outcome.error <;> rfl

theorem ofJson?_toJson : ofJson? outcome.toJson = some outcome := by
  have hnames : outcome.fields.map Prod.fst = ["success", "error", "body"] := rfl
  rw [ofJson?, toJson_eq, bind_of_eq (Json.record?_present hnames (by decide) false)]
  dsimp only [fields, List.map]
  rw [bind_required? (Json.asBool?_bool _), bind_of_eq outcome.optional?_error,
    bind_required? (Report.ofJson?_toJson _)]
  rfl

theorem data_toJson : outcome.toJson.Data := by
  rw [toJson_eq]
  exact Json.data_present (by simp [fields, outcome.report.data_toJson])

/-- The reason is written if there is one. -/
theorem member?_error : outcome.toJson.member? "error" = outcome.error.map .string := by
  have hnodup : (outcome.fields.map Prod.fst).Nodup :=
    show ["success", "error", "body"].Nodup by decide
  rw [toJson_eq]
  exact Json.member?_present hnodup (by simp [fields])

/-- The outcome that a text denotes. -/
def ofText? (text : String) : Option Outcome := (Json.parse text).bind ofJson?

/-- The text of the outcome that a text denotes. -/
def reprint? (text : String) : Option String := (ofText? text).map (·.toJson.text)

theorem ofText?_text : ofText? outcome.toJson.text = some outcome := by
  rw [ofText?, Json.parse_text outcome.data_toJson, Option.bind_some, ofJson?_toJson]

end Outcome

theorem Role.ofJson?_toJson (role : Role) : ofJson? role.toJson = some role := by
  cases role <;> decide

theorem Role.data_toJson (role : Role) : role.toJson.Data := by
  cases role <;> exact .string _

namespace Settings

variable (settings : Settings)

theorem ofJson?_toJson : ofJson? settings.toJson = some settings := by
  rw [ofJson?, toJson, bind_of_eq (Json.record?_zip (by decide) rfl false)]
  dsimp only [List.map]
  -- one rule for each member, in the order in which they are written
  rw [bind_required? (Role.ofJson?_toJson _), bind_required? (Transport.ofJson?_toJson _),
    bind_required? (Kind.ofJson?_toJson _), bind_required? (Json.asUInt16?_ofUInt16 _),
    bind_optional? Json.asString?_string (fun _ => nofun),
    bind_optional? Address.ofJson?_toJson (fun _ => nofun),
    bind_required? (Span.ofJson?_toJson _), bind_required? (Json.asUInt32?_ofUInt32 _),
    bind_optional? Json.asUInt32?_ofUInt32 (fun _ => nofun),
    bind_required? (Json.asUInt32?_ofUInt32 _), bind_required? (Json.asBool?_bool _),
    bind_optional? Json.asUInt64?_ofUInt64 (fun _ => nofun),
    bind_required? (Json.asUInt32?_ofUInt32 _),
    bind_optional? Span.ofJson?_toJson (fun _ => nofun),
    bind_required? (Json.asUInt8?_ofUInt8 _), bind_required? (Json.asBool?_bool _),
    bind_required? (Span.ofJson?_toJson _), bind_required? (Json.asUInt8?_ofUInt8 _),
    bind_required? (Span.ofJson?_toJson _), bind_required? (Json.asBool?_bool _)]
  rfl

theorem data_toJson : settings.toJson.Data :=
  Json.data_zip (by
    simp [Role.data_toJson, Transport.toJson, Kind.toJson, Json.data_ofNullable Address.data_toJson,
      Json.data_ofNullable Json.Data.string, Json.data_ofNullable Json.data_ofUInt32,
      Json.data_ofNullable Json.data_ofUInt64, Json.data_ofNullable Span.data_toJson])

/-- The settings that a text denotes. -/
def ofText? (text : String) : Option Settings := (Json.parse text).bind ofJson?

/-- The text of the settings that a text denotes. -/
def reprint? (text : String) : Option String := (ofText? text).map (·.toJson.text)

theorem ofText?_text : ofText? settings.toJson.text = some settings := by
  rw [ofText?, Json.parse_text settings.data_toJson, Option.bind_some, ofJson?_toJson]

end Settings

/-- Outcomes and settings are read back from their text, whatever they hold: an outcome also if its
reason is left out, and a count of pings if its round trips are.  So printing a text that was read
changes nothing the second time. -/
theorem documents_read_back :
    (∀ outcome : Outcome, Outcome.ofText? outcome.toJson.text = some outcome ∧
      outcome.toJson.member? "error" = outcome.error.map .string) ∧
    (∀ count : PingCount, count.toJson.member? "rtts" =
      if count.roundTrips = [] then none
      else some (.array (count.roundTrips.map Span.toJson))) ∧
    (∀ settings : Settings, Settings.ofText? settings.toJson.text = some settings) ∧
    ∀ text, (Outcome.reprint? text).bind Outcome.reprint? = Outcome.reprint? text ∧
      (Settings.reprint? text).bind Settings.reprint? = Settings.reprint? text := by
  refine ⟨fun outcome => ⟨outcome.ofText?_text, outcome.member?_error⟩,
    PingCount.member?_roundTrips, Settings.ofText?_text, fun text => ⟨?_, ?_⟩⟩
  · unfold Outcome.reprint?
    cases Outcome.ofText? text with
    | none => rfl
    | some outcome => simp [outcome.ofText?_text]
  · unfold Settings.reprint?
    cases Settings.ofText? text with
    | none => rfl
    | some settings => simp [settings.ofText?_text]

/-- A reason that is not there leaves no trace in the text. -/
example : (Outcome.ok .nothing).toJson.text = "\x7b\"success\":true,\"body\":\"None\"\x7d" := by
  cbv

end LinkMeter
