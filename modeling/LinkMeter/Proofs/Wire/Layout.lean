import LinkMeter.Proofs.Wire.Codec
import LinkMeter.Wire.Message

/-!
# How messages are laid out

A `Layout` holds the numbers of a message as they stand on the wire, whatever
they are: the number of a transport may stand for no transport, and a span may
carry seconds in its nanoseconds.  A layout stands for a message
(`Layout.Denotes`) just when its numbers are in range (`Layout.valid_iff`).

Decoding takes a message from a string of bytes just when the string begins with
a layout that stands for the message (`Message.decode_eq_ok_iff`).  Every message
is encoded as one of its layouts, the one whose spans carry nothing
(`Message.encode_eq_bytes_iff`).
-/

namespace LinkMeter.Wire

/-! ## Spans -/

/-- The numbers of a span. -/
@[ext]
structure SpanLayout where
  seconds : UInt64
  nanos : UInt32
  deriving DecidableEq

namespace SpanLayout

def bytes (layout : SpanLayout) : Bytes :=
  encodeUInt64 layout.seconds ++ encodeUInt32 layout.nanos

/-- The seconds fit 64 bits, with those that the nanoseconds amount to. -/
def Fits (layout : SpanLayout) : Prop :=
  layout.seconds.toNat + layout.nanos.toNat / 1_000_000_000 < 0x1_0000_0000_0000_0000

/-- The nanoseconds amount to less than a second. -/
def Normal (layout : SpanLayout) : Prop := layout.nanos.toNat < 1_000_000_000

instance (layout : SpanLayout) : Decidable layout.Fits := inferInstanceAs (Decidable (_ < _))

instance (layout : SpanLayout) : Decidable layout.Normal := inferInstanceAs (Decidable (_ < _))

def Denotes (layout : SpanLayout) (span : Span) : Prop :=
  span.nanos = layout.seconds.toNat * 1_000_000_000 + layout.nanos.toNat

/-- The layout that a span is encoded as. -/
def ofSpan (span : Span) : SpanLayout where
  seconds := UInt64.ofNat span.seconds
  nanos := UInt32.ofNat span.subNanos

variable {layout : SpanLayout} {span : Span}

theorem fits_iff : layout.Fits ↔ ∃ span, layout.Denotes span := by
  constructor
  · intro hfits
    unfold Fits at hfits
    exact ⟨⟨_, by omega⟩, rfl⟩
  · rintro ⟨span, hspan⟩
    have hlt := span.nanos_lt
    unfold Denotes at hspan
    unfold Fits
    omega

theorem bytes_ofSpan (span : Span) : (ofSpan span).bytes = encodeSpan span := by
  rw [bytes, ofSpan, encodeUInt64, encodeUInt32, span.toNat_seconds, span.toNat_subNanos,
    encodeSpan]

theorem denotes_ofSpan (span : Span) : (ofSpan span).Denotes span := by
  rw [Denotes, ofSpan, span.toNat_seconds, span.toNat_subNanos, span.seconds_mul_add_subNanos]

theorem normal_ofSpan (span : Span) : (ofSpan span).Normal := by
  rw [Normal, ofSpan, span.toNat_subNanos]
  exact span.subNanos_lt

/-- A layout that carries nothing is the one that its span is encoded as. -/
theorem Denotes.eq_ofSpan (h : layout.Denotes span) (hnormal : layout.Normal) :
    layout = ofSpan span := by
  obtain ⟨seconds, nanos⟩ := layout
  unfold Denotes at h
  unfold Normal at hnormal
  dsimp only at h hnormal
  have hseconds : seconds.toNat = span.seconds := by
    unfold Span.seconds
    omega
  have hnanos : nanos.toNat = span.subNanos := by
    unfold Span.subNanos
    omega
  rw [ofSpan, ← hseconds, ← hnanos, UInt64.ofNat_toNat, UInt32.ofNat_toNat]

/-- Decoding a span with the carry as a parameter: nothing here may compute the real one, whose
numbers are too large for that. -/
private def decodeParts (carry : UInt64 → UInt32 → Option Span) : Decoder Span := fun bytes => do
  let (seconds, rest) ← decodeUInt64 bytes
  let (nanos, rest) ← decodeUInt32 rest
  match carry seconds nanos with
  | some span => return (span, rest)
  | none => throw .spanOverflow

private theorem takes_parts {carry : UInt64 → UInt32 → Option Span}
    (hcarry : carry layout.seconds layout.nanos = some span) :
    Takes (decodeParts carry) layout.bytes span := by
  intro rest
  simp only [decodeParts, bytes, List.append_assoc, (takes_uint64 _).bind, (takes_uint32 _).bind,
    hcarry]
  rfl

private theorem exists_of_decodeParts {carry : UInt64 → UInt32 → Option Span} {bytes rest : Bytes}
    (h : decodeParts carry bytes = .ok (span, rest)) :
    ∃ layout : SpanLayout, carry layout.seconds layout.nanos = some span ∧
      bytes = layout.bytes ++ rest := by
  obtain ⟨⟨seconds, _⟩, hseconds, hnext⟩ := exists_of_bind h
  obtain ⟨⟨nanos, _⟩, hnanos, hspan⟩ := exists_of_bind hnext
  obtain rfl := eq_of_decodeUInt64 hseconds
  obtain rfl := eq_of_decodeUInt32 hnanos
  dsimp only at hspan
  split at hspan
  case h_1 found hfound =>
    cases hspan
    exact ⟨⟨seconds, nanos⟩, hfound, (List.append_assoc ..).symm⟩
  case h_2 => cases hspan

theorem Denotes.takes (h : layout.Denotes span) : Takes decodeSpan layout.bytes span :=
  takes_parts (Span.ofParts?_eq_some_iff.2 h)

theorem exists_of_decodeSpan {bytes rest : Bytes} (h : decodeSpan bytes = .ok (span, rest)) :
    ∃ layout : SpanLayout, layout.Denotes span ∧ bytes = layout.bytes ++ rest := by
  obtain ⟨layout, hlayout, hbytes⟩ := exists_of_decodeParts h
  exact ⟨layout, Span.ofParts?_eq_some_iff.1 hlayout, hbytes⟩

theorem eq_of_append_eq {first second : SpanLayout} {restOfFirst restOfSecond : Bytes}
    (h : first.bytes ++ restOfFirst = second.bytes ++ restOfSecond) :
    first = second ∧ restOfFirst = restOfSecond := by
  simp only [bytes, List.append_assoc] at h
  obtain ⟨hseconds, h⟩ := (takes_uint64 _).inj (takes_uint64 _) h
  obtain ⟨hnanos, h⟩ := (takes_uint32 _).inj (takes_uint32 _) h
  exact ⟨SpanLayout.ext hseconds hnanos, h⟩

end SpanLayout

/-! ## Measurements -/

/-- The numbers of a transport and of a kind. -/
@[ext]
structure MeasurementLayout where
  transport : UInt32
  kind : UInt32
  deriving DecidableEq

namespace MeasurementLayout

def bytes (layout : MeasurementLayout) : Bytes :=
  encodeUInt32 layout.transport ++ encodeUInt32 layout.kind

/-- There are three transports and eight kinds. -/
structure Valid (layout : MeasurementLayout) : Prop where
  transport_lt : layout.transport.toNat < 3
  kind_lt : layout.kind.toNat < 8

structure Denotes (layout : MeasurementLayout) (measurement : Measurement) : Prop where
  transport : Transport.all[layout.transport.toNat]? = some measurement.transport
  kind : Kind.all[layout.kind.toNat]? = some measurement.kind

/-- The layout that a measurement is encoded as. -/
def ofMeasurement (measurement : Measurement) : MeasurementLayout where
  transport := UInt32.ofNat (Transport.all.idxOf measurement.transport)
  kind := UInt32.ofNat (Kind.all.idxOf measurement.kind)

variable {layout : MeasurementLayout} {measurement : Measurement}

theorem valid_iff : layout.Valid ↔ ∃ measurement, layout.Denotes measurement := by
  constructor
  · rintro ⟨htransport, hkind⟩
    exact ⟨⟨_, _⟩, List.getElem?_eq_getElem htransport, List.getElem?_eq_getElem hkind⟩
  · rintro ⟨measurement, htransport, hkind⟩
    exact ⟨(List.getElem?_eq_some_iff.1 htransport).1, (List.getElem?_eq_some_iff.1 hkind).1⟩

theorem bytes_ofMeasurement (measurement : Measurement) :
    (ofMeasurement measurement).bytes = encodeMeasurement measurement := by
  obtain ⟨transport, kind⟩ := measurement
  cases transport <;> cases kind <;> rfl

theorem denotes_ofMeasurement (measurement : Measurement) :
    (ofMeasurement measurement).Denotes measurement := by
  obtain ⟨transport, kind⟩ := measurement
  constructor
  · cases transport <;> rfl
  · cases kind <;> rfl

/-- No two numbers stand for the same transport or for the same kind. -/
theorem Denotes.eq_ofMeasurement (h : layout.Denotes measurement) :
    layout = ofMeasurement measurement := by
  obtain ⟨transport, kind⟩ := layout
  obtain ⟨htransport, hkind⟩ := h
  obtain ⟨_, htransport⟩ := List.getElem?_eq_some_iff.1 htransport
  obtain ⟨_, hkind⟩ := List.getElem?_eq_some_iff.1 hkind
  have htransports : Transport.all.Nodup := by decide
  have hkinds : Kind.all.Nodup := by decide
  rw [ofMeasurement, ← htransport, ← hkind, htransports.idxOf_getElem, hkinds.idxOf_getElem,
    UInt32.ofNat_toNat, UInt32.ofNat_toNat]

theorem Denotes.takes (h : layout.Denotes measurement) :
    Takes decodeMeasurement layout.bytes measurement := by
  intro rest
  simp only [decodeMeasurement, bytes, List.append_assoc, (takes_case h.transport).bind,
    (takes_case h.kind).bind]
  rfl

theorem exists_of_decodeMeasurement {bytes rest : Bytes}
    (h : decodeMeasurement bytes = .ok (measurement, rest)) :
    ∃ layout : MeasurementLayout, layout.Denotes measurement ∧ bytes = layout.bytes ++ rest := by
  obtain ⟨⟨transport, _⟩, hfirst, hnext⟩ := exists_of_bind h
  obtain ⟨⟨kind, _⟩, hsecond, hmeasurement⟩ := exists_of_bind hnext
  obtain ⟨transportNumber, rfl, htransport⟩ := exists_of_decodeCase hfirst
  obtain ⟨kindNumber, rfl, hkind⟩ := exists_of_decodeCase hsecond
  cases hmeasurement
  exact ⟨⟨transportNumber, kindNumber⟩, ⟨htransport, hkind⟩, (List.append_assoc ..).symm⟩

theorem eq_of_append_eq {first second : MeasurementLayout} {restOfFirst restOfSecond : Bytes}
    (h : first.bytes ++ restOfFirst = second.bytes ++ restOfSecond) :
    first = second ∧ restOfFirst = restOfSecond := by
  simp only [bytes, List.append_assoc] at h
  obtain ⟨htransport, h⟩ := (takes_uint32 _).inj (takes_uint32 _) h
  obtain ⟨hkind, h⟩ := (takes_uint32 _).inj (takes_uint32 _) h
  exact ⟨MeasurementLayout.ext htransport hkind, h⟩

end MeasurementLayout

/-! ## Requests -/

/-- The numbers of a request. -/
@[ext]
structure RequestLayout where
  threads : UInt32
  bufferSize : UInt32
  roundTrips : UInt32
  reverse : UInt8
  duration : SpanLayout
  gap : SpanLayout
  warmup : UInt32
  rate : UInt64
  serviceType : UInt8
  deriving DecidableEq

namespace RequestLayout

def bytes (layout : RequestLayout) : Bytes :=
  encodeUInt32 layout.threads ++ encodeUInt32 layout.bufferSize ++
    encodeUInt32 layout.roundTrips ++ [layout.reverse] ++ layout.duration.bytes ++
    layout.gap.bytes ++ encodeUInt32 layout.warmup ++ encodeUInt64 layout.rate ++
    [layout.serviceType]

/-- The direction is a truth value, and both spans are in range. -/
structure Valid (layout : RequestLayout) : Prop where
  reverse : layout.reverse = 0 ∨ layout.reverse = 1
  duration : layout.duration.Fits
  gap : layout.gap.Fits

structure Normal (layout : RequestLayout) : Prop where
  duration : layout.duration.Normal
  gap : layout.gap.Normal

structure Denotes (layout : RequestLayout) (request : Request) : Prop where
  threads : request.threads = layout.threads
  bufferSize : request.bufferSize = layout.bufferSize
  roundTrips : request.roundTrips = layout.roundTrips
  reverse : layout.reverse = if request.reverse then 1 else 0
  duration : layout.duration.Denotes request.duration
  gap : layout.gap.Denotes request.gap
  warmup : request.warmup = layout.warmup
  rate : request.rate = layout.rate
  serviceType : request.serviceType = layout.serviceType

/-- The layout that a request is encoded as. -/
def ofRequest (request : Request) : RequestLayout where
  threads := request.threads
  bufferSize := request.bufferSize
  roundTrips := request.roundTrips
  reverse := if request.reverse then 1 else 0
  duration := .ofSpan request.duration
  gap := .ofSpan request.gap
  warmup := request.warmup
  rate := request.rate
  serviceType := request.serviceType

variable {layout : RequestLayout} {request : Request}

theorem valid_iff : layout.Valid ↔ ∃ request, layout.Denotes request := by
  constructor
  · rintro ⟨hreverse, hduration, hgap⟩
    obtain ⟨duration, hduration⟩ := SpanLayout.fits_iff.1 hduration
    obtain ⟨gap, hgap⟩ := SpanLayout.fits_iff.1 hgap
    refine ⟨⟨layout.threads, layout.bufferSize, layout.roundTrips, layout.reverse == 1, duration,
      gap, layout.warmup, layout.rate, layout.serviceType⟩, ⟨rfl, rfl, rfl, ?_, hduration, hgap,
      rfl, rfl, rfl⟩⟩
    rcases hreverse with hzero | hone
    · rw [hzero]
      rfl
    · rw [hone]
      rfl
  · rintro ⟨request, h⟩
    refine ⟨?_, SpanLayout.fits_iff.2 ⟨_, h.duration⟩, SpanLayout.fits_iff.2 ⟨_, h.gap⟩⟩
    rw [h.reverse]
    cases request.reverse
    · exact .inl rfl
    · exact .inr rfl

theorem bytes_ofRequest (request : Request) :
    (ofRequest request).bytes = encodeRequest request := by
  simp only [bytes, ofRequest, SpanLayout.bytes_ofSpan, encodeRequest, encodeBool]

theorem denotes_ofRequest (request : Request) : (ofRequest request).Denotes request where
  threads := rfl
  bufferSize := rfl
  roundTrips := rfl
  reverse := rfl
  duration := SpanLayout.denotes_ofSpan _
  gap := SpanLayout.denotes_ofSpan _
  warmup := rfl
  rate := rfl
  serviceType := rfl

theorem normal_ofRequest (request : Request) : (ofRequest request).Normal :=
  ⟨SpanLayout.normal_ofSpan _, SpanLayout.normal_ofSpan _⟩

theorem Denotes.eq_ofRequest (h : layout.Denotes request) (hnormal : layout.Normal) :
    layout = ofRequest request := by
  rw [ofRequest, ← h.duration.eq_ofSpan hnormal.duration, ← h.gap.eq_ofSpan hnormal.gap,
    h.threads, h.bufferSize, h.roundTrips, ← h.reverse, h.warmup, h.rate, h.serviceType]

theorem Denotes.takes (h : layout.Denotes request) :
    Takes decodeRequest layout.bytes request := by
  intro rest
  have hreverse : [layout.reverse] = encodeBool request.reverse := by
    rw [encodeBool, h.reverse]
  simp only [decodeRequest, bytes, hreverse, List.append_assoc, (takes_uint32 _).bind,
    (takes_uint64 _).bind, (takes_uint8 _).bind, (takes_bool _).bind, h.duration.takes.bind,
    h.gap.takes.bind, ← h.threads, ← h.bufferSize, ← h.roundTrips, ← h.warmup, ← h.rate,
    ← h.serviceType]
  rfl

theorem exists_of_decodeRequest {bytes rest : Bytes}
    (h : decodeRequest bytes = .ok (request, rest)) :
    ∃ layout : RequestLayout, layout.Denotes request ∧ bytes = layout.bytes ++ rest := by
  obtain ⟨⟨threads, _⟩, hthreads, hnext⟩ := exists_of_bind h
  obtain ⟨⟨bufferSize, _⟩, hbufferSize, hnext⟩ := exists_of_bind hnext
  obtain ⟨⟨roundTrips, _⟩, hroundTrips, hnext⟩ := exists_of_bind hnext
  obtain ⟨⟨reverse, _⟩, hreverse, hnext⟩ := exists_of_bind hnext
  obtain ⟨⟨duration, _⟩, hduration, hnext⟩ := exists_of_bind hnext
  obtain ⟨⟨gap, _⟩, hgap, hnext⟩ := exists_of_bind hnext
  obtain ⟨⟨warmup, _⟩, hwarmup, hnext⟩ := exists_of_bind hnext
  obtain ⟨⟨rate, _⟩, hrate, hnext⟩ := exists_of_bind hnext
  obtain ⟨⟨serviceType, _⟩, hserviceType, hrequest⟩ := exists_of_bind hnext
  cases hrequest
  -- every field stood at the head of what the field before it left
  obtain rfl := eq_of_decodeUInt32 hthreads
  obtain rfl := eq_of_decodeUInt32 hbufferSize
  obtain rfl := eq_of_decodeUInt32 hroundTrips
  obtain rfl := eq_of_decodeBool hreverse
  obtain ⟨durationLayout, hdenotes, rfl⟩ := SpanLayout.exists_of_decodeSpan hduration
  obtain ⟨gapLayout, hdenotesGap, rfl⟩ := SpanLayout.exists_of_decodeSpan hgap
  obtain rfl := eq_of_decodeUInt32 hwarmup
  obtain rfl := eq_of_decodeUInt64 hrate
  obtain rfl := eq_of_decodeUInt8 hserviceType
  refine ⟨⟨threads, bufferSize, roundTrips, if reverse then 1 else 0, durationLayout, gapLayout,
    warmup, rate, serviceType⟩, ⟨rfl, rfl, rfl, rfl, hdenotes, hdenotesGap, rfl, rfl, rfl⟩, ?_⟩
  simp [bytes]

theorem eq_of_append_eq {first second : RequestLayout} {restOfFirst restOfSecond : Bytes}
    (h : first.bytes ++ restOfFirst = second.bytes ++ restOfSecond) :
    first = second ∧ restOfFirst = restOfSecond := by
  simp only [bytes, List.append_assoc] at h
  obtain ⟨hthreads, h⟩ := (takes_uint32 _).inj (takes_uint32 _) h
  obtain ⟨hbufferSize, h⟩ := (takes_uint32 _).inj (takes_uint32 _) h
  obtain ⟨hroundTrips, h⟩ := (takes_uint32 _).inj (takes_uint32 _) h
  obtain ⟨hreverse, h⟩ := (takes_uint8 _).inj (takes_uint8 _) h
  obtain ⟨hduration, h⟩ := SpanLayout.eq_of_append_eq h
  obtain ⟨hgap, h⟩ := SpanLayout.eq_of_append_eq h
  obtain ⟨hwarmup, h⟩ := (takes_uint32 _).inj (takes_uint32 _) h
  obtain ⟨hrate, h⟩ := (takes_uint64 _).inj (takes_uint64 _) h
  obtain ⟨hserviceType, h⟩ := (takes_uint8 _).inj (takes_uint8 _) h
  exact ⟨RequestLayout.ext hthreads hbufferSize hroundTrips hreverse hduration hgap hwarmup hrate
    hserviceType, h⟩

theorem eq_of_bytes_eq {first second : RequestLayout} (h : first.bytes = second.bytes) :
    first = second := by
  have hnil : first.bytes ++ [] = second.bytes ++ [] := by rw [h]
  exact (eq_of_append_eq hnil).1

end RequestLayout

/-! ## Messages -/

/-- What stands behind the version of a message, in the order of the numbers. -/
inductive ContentLayout where
  | invalid
  | request (measurement : MeasurementLayout) (asked : RequestLayout)
  | accept
  deriving DecidableEq

/-- The numbers of a message. -/
structure Layout where
  version : UInt32
  content : ContentLayout
  deriving DecidableEq

namespace ContentLayout

def bytes : ContentLayout → Bytes
  | invalid => encodeUInt32 0
  | request measurement asked => encodeUInt32 1 ++ measurement.bytes ++ asked.bytes
  | accept => encodeUInt32 2

/-- All numbers are in range. -/
def Valid : ContentLayout → Prop
  | request measurement asked => measurement.Valid ∧ asked.Valid
  | invalid | accept => True

/-- No span carries seconds in its nanoseconds. -/
def Normal : ContentLayout → Prop
  | request _ asked => asked.Normal
  | invalid | accept => True

inductive Denotes : ContentLayout → Content → Prop
  | invalid : Denotes .invalid .invalid
  | request {measurementLayout : MeasurementLayout} {requestLayout : RequestLayout}
      {measurement : Measurement} {asked : Request} :
      measurementLayout.Denotes measurement → requestLayout.Denotes asked →
      Denotes (.request measurementLayout requestLayout) (.request measurement asked)
  | accept : Denotes .accept .accept

/-- The layout that a content is encoded as. -/
def ofContent : Content → ContentLayout
  | .invalid => .invalid
  | .request measurement asked => .request (.ofMeasurement measurement) (.ofRequest asked)
  | .accept => .accept

variable {layout : ContentLayout} {content : Content}

theorem valid_iff : layout.Valid ↔ ∃ content, layout.Denotes content := by
  cases layout with
  | invalid => exact ⟨fun _ => ⟨_, .invalid⟩, fun _ => trivial⟩
  | accept => exact ⟨fun _ => ⟨_, .accept⟩, fun _ => trivial⟩
  | request measurementLayout requestLayout =>
      constructor
      · rintro ⟨hmeasurement, hrequest⟩
        obtain ⟨measurement, hmeasurement⟩ := MeasurementLayout.valid_iff.1 hmeasurement
        obtain ⟨request, hrequest⟩ := RequestLayout.valid_iff.1 hrequest
        exact ⟨_, .request hmeasurement hrequest⟩
      · rintro ⟨content, hcontent⟩
        cases hcontent with
        | request hmeasurement hrequest =>
            exact ⟨MeasurementLayout.valid_iff.2 ⟨_, hmeasurement⟩,
              RequestLayout.valid_iff.2 ⟨_, hrequest⟩⟩

theorem denotes_ofContent (content : Content) : (ofContent content).Denotes content := by
  cases content with
  | invalid => exact .invalid
  | accept => exact .accept
  | request measurement request =>
      exact .request (MeasurementLayout.denotes_ofMeasurement _)
        (RequestLayout.denotes_ofRequest _)

theorem Denotes.eq_ofContent (h : layout.Denotes content) (hnormal : layout.Normal) :
    layout = ofContent content := by
  cases h with
  | invalid | accept => rfl
  | request hmeasurement hrequest =>
      rw [ofContent, ← hmeasurement.eq_ofMeasurement, ← hrequest.eq_ofRequest hnormal]

theorem takes_number {number : UInt32} (h : number.toNat < 3) :
    Takes (decodeCase [0, 1, 2]) (encodeUInt32 number) number.toNat := by
  refine takes_case ?_
  have hnumber : number.toNat = 0 ∨ number.toNat = 1 ∨ number.toNat = 2 := by omega
  rcases hnumber with hzero | hone | htwo
  · rw [hzero]
    rfl
  · rw [hone]
    rfl
  · rw [htwo]
    rfl

theorem Denotes.takes (h : layout.Denotes content) :
    Takes Message.decodeContent layout.bytes content := by
  intro rest
  cases h with
  | invalid =>
      have hzero : Takes (decodeCase [0, 1, 2]) (encodeUInt32 0) 0 := takes_number (by decide)
      rw [Message.decodeContent, bytes, hzero.bind]
      rfl
  | accept =>
      have htwo : Takes (decodeCase [0, 1, 2]) (encodeUInt32 2) 2 := takes_number (by decide)
      rw [Message.decodeContent, bytes, htwo.bind]
      rfl
  | request hmeasurement hrequest =>
      have hone : Takes (decodeCase [0, 1, 2]) (encodeUInt32 1) 1 := takes_number (by decide)
      simp only [Message.decodeContent, bytes, List.append_assoc, hone.bind,
        hmeasurement.takes.bind, hrequest.takes.bind]
      rfl

theorem exists_of_decodeContent {bytes rest : Bytes}
    (h : Message.decodeContent bytes = .ok (content, rest)) :
    ∃ layout : ContentLayout, layout.Denotes content ∧ bytes = layout.bytes ++ rest := by
  obtain ⟨⟨place, _⟩, hplace, hcontent⟩ := exists_of_bind h
  obtain ⟨number, rfl, hnumber⟩ := exists_of_decodeCase hplace
  have hcases : number = 0 ∨ number = 1 ∨ number = 2 := by
    have hlt : number.toNat < 3 := (List.getElem?_eq_some_iff.1 hnumber).1
    simp only [← UInt32.toNat_inj, UInt32.reduceToNat]
    omega
  rcases hcases with rfl | rfl | rfl
  · cases hnumber
    cases hcontent
    exact ⟨.invalid, .invalid, rfl⟩
  · cases hnumber
    obtain ⟨⟨measurement, _⟩, hfirst, hnext⟩ := exists_of_bind hcontent
    obtain ⟨⟨asked, _⟩, hsecond, hboth⟩ := exists_of_bind hnext
    cases hboth
    obtain ⟨measurementLayout, hmeasurement, rfl⟩ :=
      MeasurementLayout.exists_of_decodeMeasurement hfirst
    obtain ⟨requestLayout, hrequest, rfl⟩ := RequestLayout.exists_of_decodeRequest hsecond
    refine ⟨.request measurementLayout requestLayout, .request hmeasurement hrequest, ?_⟩
    simp [bytes]
  · cases hnumber
    cases hcontent
    exact ⟨.accept, .accept, rfl⟩

/-- Of the layouts of a content, it is encoded as the one that carries nothing. -/
theorem Denotes.bytes_eq_iff (h : layout.Denotes content) :
    (ofContent content).bytes = layout.bytes ↔ layout.Normal := by
  constructor
  · intro hbytes
    cases h with
    | invalid | accept => trivial
    | request hmeasurement hrequest =>
        simp only [ofContent, bytes, List.append_assoc, List.append_cancel_left_eq] at hbytes
        obtain ⟨-, hrequests⟩ := MeasurementLayout.eq_of_append_eq hbytes
        obtain rfl := RequestLayout.eq_of_bytes_eq hrequests
        exact RequestLayout.normal_ofRequest _
  · intro hnormal
    rw [h.eq_ofContent hnormal]

end ContentLayout

namespace Layout

def bytes (layout : Layout) : Bytes := encodeUInt32 layout.version ++ layout.content.bytes

/-- All numbers are in range. -/
def Valid (layout : Layout) : Prop := layout.content.Valid

/-- No span carries seconds in its nanoseconds. -/
def Normal (layout : Layout) : Prop := layout.content.Normal

structure Denotes (layout : Layout) (message : Message) : Prop where
  version : message.version = layout.version
  content : layout.content.Denotes message.content

/-- The layout that a message is encoded as. -/
def ofMessage (message : Message) : Layout where
  version := message.version
  content := .ofContent message.content

variable {layout : Layout} {message : Message}

theorem valid_iff : layout.Valid ↔ ∃ message, layout.Denotes message := by
  unfold Valid
  rw [ContentLayout.valid_iff]
  constructor
  · rintro ⟨content, h⟩
    exact ⟨⟨layout.version, content⟩, rfl, h⟩
  · rintro ⟨message, -, h⟩
    exact ⟨message.content, h⟩

theorem bytes_ofMessage (message : Message) : (ofMessage message).bytes = message.encode := by
  obtain ⟨version, content⟩ := message
  cases content with
  | invalid | accept => rfl
  | request measurement request =>
      simp only [bytes, ofMessage, ContentLayout.bytes, ContentLayout.ofContent,
        MeasurementLayout.bytes_ofMeasurement, RequestLayout.bytes_ofRequest, Message.encode]
      rfl

theorem denotes_ofMessage (message : Message) : (ofMessage message).Denotes message :=
  ⟨rfl, ContentLayout.denotes_ofContent _⟩

theorem Denotes.takes (h : layout.Denotes message) :
    Takes Message.decode layout.bytes message := by
  intro rest
  simp only [Message.decode, bytes, List.append_assoc, (takes_uint32 _).bind, h.content.takes.bind,
    ← h.version]
  rfl

end Layout

namespace Message

variable {message : Message} {bytes rest : Bytes}

/-- A message is decoded just where a layout of it stands. -/
theorem decode_eq_ok_iff :
    decode bytes = .ok (message, rest) ↔
      ∃ layout : Layout, layout.Denotes message ∧ bytes = layout.bytes ++ rest := by
  constructor
  · intro h
    obtain ⟨⟨version, _⟩, hversion, hnext⟩ := exists_of_bind h
    obtain ⟨⟨content, _⟩, hcontent, hmessage⟩ := exists_of_bind hnext
    cases hmessage
    obtain rfl := eq_of_decodeUInt32 hversion
    obtain ⟨layout, hlayout, rfl⟩ := ContentLayout.exists_of_decodeContent hcontent
    exact ⟨⟨version, layout⟩, ⟨rfl, hlayout⟩, (List.append_assoc ..).symm⟩
  · rintro ⟨layout, hlayout, rfl⟩
    exact hlayout.takes rest

theorem takes_message (message : Message) : Takes decode message.encode message := by
  rw [← Layout.bytes_ofMessage]
  exact (Layout.denotes_ofMessage message).takes

theorem ofBytes_eq_ok_iff :
    ofBytes bytes = .ok message ↔ ∃ rest, decode bytes = .ok (message, rest) := by
  unfold ofBytes
  constructor
  · intro h
    split at h
    case h_1 rest hdecode =>
      cases h
      exact ⟨rest, hdecode⟩
    case h_2 => cases h
  · rintro ⟨rest, hdecode⟩
    rw [hdecode]

/-- Bytes behind a message are passed over. -/
theorem ofBytes_encode (message : Message) (rest : Bytes) :
    ofBytes (message.encode ++ rest) = .ok message :=
  ofBytes_eq_ok_iff.2 ⟨rest, message.takes_message rest⟩

/-- Of the layouts of a message, it is encoded as the one that carries nothing. -/
theorem encode_eq_bytes_iff {layout : Layout} (h : layout.Denotes message) :
    message.encode = layout.bytes ↔ layout.Normal := by
  rw [← Layout.bytes_ofMessage, Layout.bytes, Layout.bytes, Layout.ofMessage, h.version,
    List.append_cancel_left_eq]
  exact h.content.bytes_eq_iff

end Message

end LinkMeter.Wire
