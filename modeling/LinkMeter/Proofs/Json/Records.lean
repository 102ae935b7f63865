import LinkMeter.Json.Plain
import LinkMeter.Measurement
import LinkMeter.Proofs.Address.RoundTrip
import LinkMeter.Proofs.Json.RoundTrip
import LinkMeter.Proofs.Wire.Codec

/-!
# Records that are written and read

A record whose member names are distinct is read field by field, whichever of
its members are left out (`Json.record?_present`), so reading a record undoes
writing it as soon as reading each of its fields does.  That holds for numbers,
for spans, for addresses and for names of choices, and it carries over to
optional values and to lists.
-/

namespace LinkMeter

namespace Json

/-! ## Members -/

section Members

variable {fields : List (String × Option Json)} {name : String} {value : Option Json}

/-- The members of the fields that are there, which may be fewer than the fields. -/
def present (fields : List (String × Option Json)) : List (String × Json) :=
  fields.filterMap fun (name, value) => value.map (name, ·)

theorem membersNamed_present_of_notMem (h : name ∉ fields.map Prod.fst) :
    membersNamed name (present fields) = [] := by
  refine List.filterMap_eq_nil_iff.2 fun member hmember => ?_
  obtain ⟨⟨key, content⟩, hfield, hmember⟩ := List.mem_filterMap.1 hmember
  obtain ⟨found, -, rfl⟩ := Option.map_eq_some_iff.1 hmember
  refine if_neg ?_
  rintro rfl
  exact h (List.mem_map.2 ⟨_, hfield, rfl⟩)

theorem membersNamed_present (hnodup : (fields.map Prod.fst).Nodup)
    (hfield : (name, value) ∈ fields) : membersNamed name (present fields) = value.toList := by
  induction fields with
  | nil => cases hfield
  | cons field fields ih =>
      obtain ⟨hother, hnodup⟩ := List.nodup_cons.1 hnodup
      have hcons : membersNamed name (present (field :: fields)) =
          (if field.1 = name then field.2.toList else []) ++
            membersNamed name (present fields) := by
        obtain ⟨key, content⟩ := field
        cases content <;> by_cases hkey : key = name <;> simp [membersNamed, present, hkey]
      rw [hcons]
      obtain rfl | hlater := List.mem_cons.1 hfield
      · rw [if_pos rfl, membersNamed_present_of_notMem hother, List.append_nil]
      · have hkey : field.1 ≠ name := by
          rintro rfl
          exact hother (List.mem_map.2 ⟨_, hlater, rfl⟩)
        rw [if_neg hkey, List.nil_append, ih hnodup hlater]

/-- A field is a member if it is there. -/
theorem member?_present (hnodup : (fields.map Prod.fst).Nodup) (hfield : (name, value) ∈ fields) :
    (object (present fields)).member? name = value := by
  rw [member?, membersNamed_present hnodup hfield]
  cases value <;> rfl

/-- The fields of a record are read as they were, also those that were left out. -/
theorem record?_present {names : List String} (hnames : fields.map Prod.fst = names)
    (hnodup : names.Nodup) (closed : Bool) :
    record? names closed (object (present fields)) = some (fields.map Prod.snd) := by
  subst hnames
  unfold record?
  dsimp only
  rw [if_neg, mapM_map]
  · intro field hfield
    rw [membersNamed_present hnodup hfield]
    cases field.2 <;> rfl
  · -- a member that is there has the name of a field, so none is unknown
    rw [Bool.and_eq_true, List.any_eq_true]
    rintro ⟨-, member, hmember, hunknown⟩
    obtain ⟨⟨key, content⟩, hfield, hmember⟩ := List.mem_filterMap.1 hmember
    obtain ⟨found, -, rfl⟩ := Option.map_eq_some_iff.1 hmember
    have hkey : (fields.map Prod.fst).contains key = true :=
      List.contains_iff_mem.2 (List.mem_map.2 ⟨_, hfield, rfl⟩)
    simp only [hkey, Bool.not_true, Bool.false_eq_true] at hunknown

/-- The fields of a record without omissions. -/
theorem record?_zip {names : List String} {values : List Json} (hnodup : names.Nodup)
    (hlength : names.length = values.length) (closed : Bool) :
    record? names closed (object (names.zip values)) = some (values.map some) := by
  have hnames : (names.zip (values.map some)).map Prod.fst = names :=
    List.map_fst_zip (by rw [List.length_map, hlength])
  have hvalues : (names.zip (values.map some)).map Prod.snd = values.map some :=
    List.map_snd_zip (by rw [List.length_map, hlength])
  have hpresent : present (names.zip (values.map some)) = names.zip values := by
    rw [present, List.zip_map_right, List.filterMap_map]
    exact List.filterMap_some
  have hread := record?_present hnames hnodup closed
  rwa [hvalues, hpresent] at hread

end Members

/-! ## Plain values -/

theorem asUInt8?_ofUInt8 (value : UInt8) : asUInt8? (ofUInt8 value) = some value := by
  simp [asUInt8?, ofUInt8, asNatBelow?, value.toNat_lt_size]

theorem asUInt16?_ofUInt16 (value : UInt16) :
    asUInt16? (ofUInt16 value) = some value := by
  simp [asUInt16?, ofUInt16, asNatBelow?, value.toNat_lt_size]

theorem asUInt32?_ofUInt32 (value : UInt32) :
    asUInt32? (ofUInt32 value) = some value := by
  simp [asUInt32?, ofUInt32, asNatBelow?, value.toNat_lt_size]

theorem asUInt64?_ofUInt64 (value : UInt64) :
    asUInt64? (ofUInt64 value) = some value := by
  simp [asUInt64?, ofUInt64, asNatBelow?, value.toNat_lt_size]

theorem asBool?_bool (value : Bool) : asBool? (bool value) = some value := rfl

theorem asString?_string (text : String) : asString? (string text) = some text := rfl

/-! ## Reading one field after the other -/

section Fields

variable {α β : Type} {content : α → Json} {content? : Json → Option α}

theorem bind_of_eq {read : Option α} {value : α} (h : read = some value) (next : α → Option β) :
    (read >>= next) = next value := by
  rw [h, Option.bind_eq_bind, Option.bind_some]

theorem bind_required? {value : Json} {result : α} (h : content? value = some result)
    (next : α → Option β) : (required? content? (some value) >>= next) = next result :=
  bind_of_eq h next

theorem asList?_map (h : ∀ value, content? (content value) = some value) (values : List α) :
    asList? content? (array (values.map content)) = some values := by
  rw [asList?, mapM_map fun value _ => h value, List.map_id']

/-- An optional value that is there is not written as one that is not. -/
theorem optional?_ofNullable (h : ∀ value, content? (content value) = some value)
    (hnull : ∀ value, content value ≠ null) (value : Option α) :
    optional? content? (some (ofNullable content value)) = some value := by
  cases value with
  | none => rfl
  | some value =>
      have hcontent := h value
      have hother := hnull value
      rw [ofNullable, optional?]
      cases hwritten : content value <;> simp_all [asNullable?]

theorem bind_optional? (h : ∀ value, content? (content value) = some value)
    (hnull : ∀ value, content value ≠ null) (value : Option α) (next : Option α → Option β) :
    (optional? content? (some (ofNullable content value)) >>= next) = next value :=
  bind_of_eq (optional?_ofNullable h hnull value) next

end Fields


/-! ## Data -/

theorem data_choice {content : Json} (h : content.Data) (name : String) :
    (object [(name, content)]).Data :=
  .object fun _ hmember => List.mem_singleton.1 hmember ▸ h

theorem data_zip {names : List String} {values : List Json} (h : ∀ value ∈ values, value.Data) :
    (object (names.zip values)).Data :=
  .object fun _ hmember => h _ (List.of_mem_zip hmember).2

theorem data_present {fields : List (String × Option Json)}
    (h : ∀ field ∈ fields, ∀ value ∈ field.2, value.Data) : (object (present fields)).Data := by
  refine .object fun member hmember => ?_
  obtain ⟨⟨key, content⟩, hfield, hmember⟩ := List.mem_filterMap.1 hmember
  obtain ⟨value, hvalue, rfl⟩ := Option.map_eq_some_iff.1 hmember
  exact h _ hfield value hvalue

theorem data_map {α : Type} {content : α → Json} (h : ∀ value, (content value).Data)
    (values : List α) : (array (values.map content)).Data :=
  .array fun _ hitem => by
    obtain ⟨value, -, rfl⟩ := List.mem_map.1 hitem
    exact h value

theorem data_ofNullable {α : Type} {content : α → Json} (h : ∀ value, (content value).Data)
    (value : Option α) : (ofNullable content value).Data := by
  cases value with
  | none => exact .null
  | some value => exact h value

attribute [simp] Data.bool Data.string

@[simp] theorem data_ofUInt8 (value : UInt8) : (ofUInt8 value).Data := .natural _

@[simp] theorem data_ofUInt16 (value : UInt16) : (ofUInt16 value).Data := .natural _

@[simp] theorem data_ofUInt32 (value : UInt32) : (ofUInt32 value).Data := .natural _

@[simp] theorem data_ofUInt64 (value : UInt64) : (ofUInt64 value).Data := .natural _

end Json

/-! ## Spans, addresses and names -/

namespace Span

theorem ofJson?_toJson (span : Span) : ofJson? span.toJson = some span := by
  have hjson : span.toJson =
      .object (["secs", "nanos"].zip [.natural span.seconds, .natural span.subNanos]) := rfl
  have hseconds : Json.asUInt64? (.natural span.seconds) =
      some (UInt64.ofNat span.seconds) := by
    rw [Json.asUInt64?, Json.asNatBelow?, if_pos span.seconds_lt, Option.map_some]
  have hnanos : Json.asUInt32? (.natural span.subNanos) =
      some (UInt32.ofNat span.subNanos) := by
    rw [Json.asUInt32?, Json.asNatBelow?,
      if_pos (Nat.lt_trans span.subNanos_lt (by decide)), Option.map_some]
  have hparts : ofParts? (UInt64.ofNat span.seconds) (UInt32.ofNat span.subNanos) = some span := by
    rw [ofParts?_eq_some_iff, toNat_seconds, toNat_subNanos, seconds_mul_add_subNanos]
  rw [ofJson?, hjson, Json.bind_of_eq (Json.record?_zip (by decide) rfl true)]
  dsimp only [List.map]
  rw [Json.bind_required? hseconds, Json.bind_required? hnanos, hparts]

@[simp] theorem data_toJson (span : Span) : span.toJson.Data :=
  .object fun member hmember => by
    obtain rfl | hmember := List.mem_cons.1 hmember
    · exact .natural _
    · rw [List.mem_singleton.1 hmember]
      exact .natural _

end Span

namespace Address

theorem ofJson?_toJson (address : Address) : ofJson? address.toJson = some address :=
  ofText?_text address

@[simp] theorem data_toJson (address : Address) : address.toJson.Data := .string _

end Address

theorem Transport.ofJson?_toJson (transport : Transport) :
    ofJson? transport.toJson = some transport := by
  cases transport <;> decide

theorem Kind.ofJson?_toJson (kind : Kind) : ofJson? kind.toJson = some kind := by
  cases kind <;> decide

end LinkMeter
