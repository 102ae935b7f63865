import LinkMeter.Counters.Tables
import LinkMeter.Proofs.Number.Numerals
import LinkMeter.Proofs.Text.Lines

/-!
# Tables that are read back

A table of interfaces is laid out from devices: two header lines, whatever they
say, and then one line per device, with its name, a colon and its counters in
columns (`Device.Shows`).  Lines that show no device may stand between them
(`PassedOver`).  Reading the table gives the devices in their order, the loopback
interface left out (`interfaces_eq`), so a line that is passed over makes no
difference wherever it is put in (`interfaces_insert`).

In the table of protocol counters only the first two lines for TCP matter
(`ShowsTcp`): the names of the columns and the entries under them.  Which column
tells the retransmitted segments is found by its name, so the entry that is read is
the one under that name, at whatever place it stands (`retransmits_reads`).
-/

namespace LinkMeter.Counters

open Text

/-! ## Single counters -/

/-- What is read of an entry: the number below `2 ^ 64` that it stands for, or zero if it stands
for none or is wanting. -/
inductive Reads : Option (List Char) → UInt64 → Prop
  | number {entry : List Char} {value : UInt64} (h : Decimal.Writes entry value.toNat) :
      Reads (some entry) value
  | other {entry : List Char} (h : ∀ value : UInt64, ¬ Decimal.Writes entry value.toNat) :
      Reads (some entry) 0
  | wanting : Reads none 0

theorem counter_of_writes {entry : List Char} {value : UInt64}
    (h : Decimal.Writes entry value.toNat) : counter entry = value := by
  rw [counter, Decimal.readBelow?_eq_some_iff.2 ⟨value.toNat_lt_size, h⟩, Option.getD_some,
    UInt64.ofNat_toNat]

theorem reads_counter (entry : List Char) : Reads (some entry) (counter entry) := by
  by_cases h : ∃ value : UInt64, Decimal.Writes entry value.toNat
  · obtain ⟨value, hvalue⟩ := h
    rw [counter_of_writes hvalue]
    exact .number hvalue
  · have hnone : Decimal.readBelow? UInt64.size entry = none := by
      refine Option.eq_none_iff_forall_ne_some.2 fun n hn => h ?_
      obtain ⟨hlt, hwrites⟩ := Decimal.readBelow?_eq_some_iff.1 hn
      exact ⟨UInt64.ofNat n, by rwa [UInt64.toNat_ofNat_of_lt' hlt]⟩
    have hcounter : counter entry = 0 := by
      rw [counter, hnone]
      rfl
    rw [hcounter]
    exact .other (not_exists.1 h)

theorem counter_render (value : UInt64) : counter (Decimal.render value.toNat) = value :=
  counter_of_writes (.inl (Decimal.isNumeral_render value.toNat))

/-! ## Lines of interfaces -/

/-- A network interface as the system shows it. -/
structure Device where
  name : List Char
  counters : List UInt64
  isWord : IsWord name
  no_colon : ':' ∉ name
  ten_le : 10 ≤ counters.length

namespace Device

def counter (device : Device) (column : Fin 10) : UInt64 :=
  device.counters.get (column.castLE device.ten_le)

/-- What the table tells about the device. -/
def interface (device : Device) : Interface where
  name := String.ofList device.name
  receivedBytes := device.counter 0
  receivedPackets := device.counter 1
  sentBytes := device.counter 8
  sentPackets := device.counter 9

/-- The line is the name, a colon and the counters, with any blanks in front of the name and
between the columns. -/
inductive Shows (device : Device) : List Char → Prop
  | intro {blanks after : List Char} (hblanks : Blanks blanks)
      (hafter : Spaced (device.counters.map fun value => Decimal.render value.toNat) after) :
      Shows device (blanks ++ device.name ++ ':' :: after)

end Device

/-- A line that shows no device. -/
inductive PassedOver : List Char → Prop
  | plain {line : List Char} (h : ':' ∉ line) : PassedOver line
  | short {name after : List Char} {columns : List (List Char)} (hname : ':' ∉ name)
      (hafter : Spaced columns after) (hshort : columns.length < 10) :
      PassedOver (name ++ ':' :: after)

/-- A line of the table, and the device that it shows if it shows one. -/
inductive Row : List Char → Option Device → Prop
  | device {line : List Char} {device : Device} (h : device.Shows line) : Row line (some device)
  | foreign {line : List Char} (h : PassedOver line) : Row line none

theorem ignoresEnding_readInterface? : IgnoresEnding readInterface? where
  nil := rfl
  ending line := by
    rcases dropReturn_cases line with hline | hline
    · rw [hline]
    · conv_rhs => rw [hline]
      unfold readInterface?
      rw [splitAtFirst_concat (by decide)]
      cases splitAtFirst ':' (dropReturn line) with
      | none => rfl
      | some parts => simp only [Option.map_some, Option.bind_eq_bind, Option.bind_some,
          words_append_blank (show isBlank '\r' = true by decide)]

theorem readInterface?_of_passedOver {line : List Char} (h : PassedOver line) :
    readInterface? line = none := by
  unfold readInterface?
  cases h with
  | plain hline => rw [splitAtFirst_of_not_mem hline]; rfl
  | @short name after columns hname hafter hshort =>
      rw [splitAtFirst_append hname, Option.bind_eq_bind, Option.bind_some]
      dsimp only
      rw [hafter.words_eq]
      split
      · rfl
      · split
        next hcolumns =>
          have hlength := congrArg List.length hcolumns
          rw [List.length_map] at hlength
          simp only [List.length_cons] at hlength
          omega
        · rfl

/-- The first ten of at least ten counters. -/
theorem exists_ten {counters : List UInt64} (h : 10 ≤ counters.length) :
    ∃ c₀ c₁ c₂ c₃ c₄ c₅ c₆ c₇ c₈ c₉ rest,
      counters = c₀ :: c₁ :: c₂ :: c₃ :: c₄ :: c₅ :: c₆ :: c₇ :: c₈ :: c₉ :: rest := by
  match counters, h with
  | _ :: _ :: _ :: _ :: _ :: _ :: _ :: _ :: _ :: _ :: _, _ =>
      exact ⟨_, _, _, _, _, _, _, _, _, _, _, rfl⟩

theorem readInterface?_of_shows {device : Device} {line : List Char} (h : device.Shows line) :
    readInterface? line =
      if device.name = "lo".toList then none else some device.interface := by
  obtain @⟨blanks, after, hblanks, hafter⟩ := h
  have hcolon : ':' ∉ blanks ++ device.name := fun hmem =>
    (List.mem_append.1 hmem).elim (fun hmem => absurd (hblanks ':' hmem) (by decide))
      device.no_colon
  have hcounters : (words after).map counter = device.counters := by
    rw [hafter.words_eq, List.map_map]
    exact List.map_id'' counter_render device.counters
  unfold readInterface?
  rw [splitAtFirst_append hcolon, Option.bind_eq_bind, Option.bind_some]
  dsimp only
  rw [trim_blanks_append hblanks device.isWord.solid, hcounters]
  refine if_congr Iff.rfl rfl ?_
  obtain ⟨name, counters, _, _, hten⟩ := device
  obtain ⟨_, _, _, _, _, _, _, _, _, _, _, rfl⟩ := exists_ten hten
  rfl

/-! ## The table of interfaces -/

variable {table longer : List Char}

theorem interfaces_of_lined {ls : List (List Char)} (hlined : Lined ls table) :
    interfaces table = (ls.drop 2).filterMap readInterface? :=
  hlined.filterMap_drop ignoresEnding_readInterface? 2

theorem filterMap_passedOver {ls : List (List Char)} (h : ∀ line ∈ ls, PassedOver line) :
    ls.filterMap readInterface? = [] :=
  List.filterMap_eq_nil_iff.2 fun line hline => readInterface?_of_passedOver (h line hline)

theorem filterMap_rows {rows : List (List Char × Option Device)}
    (hrows : ∀ row ∈ rows, Row row.1 row.2) :
    (rows.map Prod.fst).filterMap readInterface? =
      ((rows.filterMap Prod.snd).filter (·.name ≠ "lo".toList)).map Device.interface := by
  induction rows with
  | nil => rfl
  | cons row rows ih =>
      obtain ⟨line, shown⟩ := row
      obtain ⟨hrow, hrows⟩ := List.forall_mem_cons.1 hrows
      rw [List.map_cons, List.filterMap_cons, List.filterMap_cons, ih hrows]
      cases hrow with
      | foreign h => rw [readInterface?_of_passedOver h]
      | @device device h =>
          rw [readInterface?_of_shows h]
          by_cases hname : device.name = "lo".toList
          · rw [if_pos hname, List.filter_cons_of_neg (by simpa using hname)]
          · rw [if_neg hname, List.filter_cons_of_pos (by simpa using hname), List.map_cons]

theorem interfaces_eq {first second : List Char} {rows : List (List Char × Option Device)}
    (hlined : Lined (first :: second :: rows.map Prod.fst) table)
    (hrows : ∀ row ∈ rows, Row row.1 row.2) :
    interfaces table =
      ((rows.filterMap Prod.snd).filter (·.name ≠ "lo".toList)).map Device.interface :=
  (interfaces_of_lined hlined).trans (filterMap_rows hrows)

theorem filterMap_insert {front extra back : List (List Char)}
    (hextra : ∀ line ∈ extra, PassedOver line) :
    (front ++ (extra ++ back)).filterMap readInterface? =
      (front ++ back).filterMap readInterface? := by
  rw [List.filterMap_append, List.filterMap_append, List.filterMap_append,
    filterMap_passedOver hextra, List.nil_append]

/-- Header lines that show no device may be read with the others. -/
theorem filterMap_drop_of_headers {ls : List (List Char)}
    (h : ∀ line ∈ ls.take 2, PassedOver line) :
    (ls.drop 2).filterMap readInterface? = ls.filterMap readInterface? := by
  conv_rhs => rw [← List.take_append_drop 2 ls, List.filterMap_append, filterMap_passedOver h]
  rw [List.nil_append]

/-- The lines may be put in anywhere behind the two header lines, and also in front of them or
between them where these show no device either. -/
theorem interfaces_insert {front extra back : List (List Char)}
    (hlined : Lined (front ++ back) table) (hlonger : Lined (front ++ (extra ++ back)) longer)
    (hextra : ∀ line ∈ extra, PassedOver line)
    (hplace : 2 ≤ front.length ∨ ∀ line ∈ (front ++ back).take 2, PassedOver line) :
    interfaces longer = interfaces table := by
  rw [interfaces_of_lined hlined, interfaces_of_lined hlonger]
  rcases hplace with hfront | hheaders
  · rw [List.drop_append_of_le_length hfront, List.drop_append_of_le_length hfront,
      filterMap_insert hextra]
  · have hmoved : ∀ line ∈ (front ++ (extra ++ back)).take 2, PassedOver line := by
      intro line hline
      rw [List.take_append, List.take_append] at hline
      rw [List.take_append] at hheaders
      obtain ⟨hfront, hback⟩ := List.forall_mem_append.1 hheaders
      rcases List.mem_append.1 hline with hline | hline
      · exact hfront line hline
      · rcases List.mem_append.1 hline with hline | hline
        · exact hextra line (List.mem_of_mem_take hline)
        · exact hback line ((List.take_prefix_take_left (Nat.sub_le _ _)).subset hline)
    rw [filterMap_drop_of_headers hheaders, filterMap_drop_of_headers hmoved,
      filterMap_insert hextra]

/-! ## The table of protocol counters -/

/-- The line is one for TCP. -/
def ForTcp (line : List Char) : Prop := "Tcp:".toList <+: line

/-- The first two lines for TCP in the table: the names of the columns, and the entries under
them.  Each has a label of its own in front. -/
inductive ShowsTcp (names entries : List (List Char)) : List Char → Prop
  | intro {before between after : List (List Char)} {header values label mark table : List Char}
      (hlined : Lined (before ++ header :: (between ++ values :: after)) table)
      (hbefore : ∀ line ∈ before, ¬ ForTcp line) (hheader : ForTcp header)
      (hbetween : ∀ line ∈ between, ¬ ForTcp line) (hvalues : ForTcp values)
      (hnames : Spaced (label :: names) header) (hentries : Spaced (mark :: entries) values) :
      ShowsTcp names entries table

/-- The label of the line begins as the line does, and is no name of a column that is looked
for. -/
theorem ForTcp.label_ne {header label : List Char} {names : List (List Char)}
    (hheader : ForTcp header) (hnames : Spaced (label :: names) header) :
    label ≠ "RetransSegs".toList := by
  rintro rfl
  obtain ⟨tail, htail⟩ := hheader
  obtain _ | @⟨blanks, _, _, _, hblanks⟩ := hnames
  cases blanks with
  | nil => exact absurd (List.cons.inj htail).1 (by decide)
  | cons c blanks =>
      obtain rfl : 'T' = c := (List.cons.inj htail).1
      exact absurd (hblanks 'T' List.mem_cons_self) (by decide)

/-- The columns of a line for TCP. -/
def tcpColumns? (line : List Char) : Option (List (List Char)) :=
  if "Tcp:".toList.isPrefixOf line then some (words line) else none

theorem tcpColumns?_of_forTcp {line : List Char} (h : ForTcp line) :
    tcpColumns? line = some (words line) := if_pos (List.isPrefixOf_iff_prefix.2 h)

theorem tcpColumns?_of_not_forTcp {line : List Char} (h : ¬ ForTcp line) :
    tcpColumns? line = none := if_neg (List.isPrefixOf_iff_prefix.not.2 h)

theorem forTcp_dropReturn (line : List Char) : ForTcp (dropReturn line) ↔ ForTcp line := by
  rcases dropReturn_cases line with hline | hline
  · rw [hline]
  · conv_rhs => rw [hline, ForTcp, List.prefix_concat_iff]
    refine (or_iff_right fun heq => ?_).symm
    have hlast := congrArg List.getLast? heq
    rw [List.getLast?_concat] at hlast
    exact absurd hlast (by decide)

theorem ignoresEnding_tcpColumns? : IgnoresEnding tcpColumns? where
  nil := rfl
  ending line := by
    by_cases h : ForTcp line
    · rw [tcpColumns?_of_forTcp h, tcpColumns?_of_forTcp ((forTcp_dropReturn line).2 h),
        words_dropReturn]
    · rw [tcpColumns?_of_not_forTcp h,
        tcpColumns?_of_not_forTcp ((forTcp_dropReturn line).not.2 h)]

theorem filterMap_not_forTcp {ls : List (List Char)} (h : ∀ line ∈ ls, ¬ ForTcp line) :
    ls.filterMap tcpColumns? = [] :=
  List.filterMap_eq_nil_iff.2 fun line hline => tcpColumns?_of_not_forTcp (h line hline)

theorem filterMap_tcpColumns? (ls : List (List Char)) :
    ls.filterMap tcpColumns? = (ls.filter ("Tcp:".toList.isPrefixOf ·)).map words := by
  induction ls with
  | nil => rfl
  | cons line ls ih =>
      rw [List.filterMap_cons, ih]
      by_cases h : ForTcp line
      · rw [tcpColumns?_of_forTcp h,
          List.filter_cons_of_pos (List.isPrefixOf_iff_prefix.2 h), List.map_cons]
      · rw [tcpColumns?_of_not_forTcp h,
          List.filter_cons_of_neg (List.isPrefixOf_iff_prefix.not.2 h)]

/-- The entry in the column of a name. -/
theorem find?_zip {names entries : List (List Char)} {key : List Char} {place : ℕ}
    (hnodup : names.Nodup) (hplace : names[place]? = some key) :
    ((names.zip entries).find? (·.1 == key)) = entries[place]?.map (key, ·) := by
  induction names generalizing entries place with
  | nil => cases hplace
  | cons name names ih =>
      obtain ⟨hfresh, hnodup⟩ := List.nodup_cons.1 hnodup
      cases entries with
      | nil => rfl
      | cons entry entries =>
          cases place with
          | zero =>
              obtain rfl : name = key := Option.some.inj hplace
              rw [List.zip_cons_cons, List.find?_cons_of_pos (by exact beq_self_eq_true name)]
              rfl
          | succ place =>
              have hname : name ≠ key := by
                rintro rfl
                exact hfresh (List.mem_of_getElem? hplace)
              rw [List.zip_cons_cons, List.find?_cons_of_neg (by simpa using hname)]
              exact ih hnodup hplace

/-- The columns of the first two lines for TCP. -/
theorem ShowsTcp.exists_columns {names entries : List (List Char)}
    (hshows : ShowsTcp names entries table) :
    ∃ label mark rest, label ≠ "RetransSegs".toList ∧
      ((lines table).filter ("Tcp:".toList.isPrefixOf ·)).map words =
        (label :: names) :: (mark :: entries) :: rest := by
  obtain @⟨before, between, after, header, values, label, mark, _, hlined, hbefore, hheader,
    hbetween, hvalues, hnames, hentries⟩ := hshows
  refine ⟨label, mark, after.filterMap tcpColumns?, hheader.label_ne hnames, ?_⟩
  have hread := hlined.filterMap_drop ignoresEnding_tcpColumns? 0
  rw [List.drop_zero, List.drop_zero, filterMap_tcpColumns?] at hread
  rw [hread, List.filterMap_append, filterMap_not_forTcp hbefore, List.nil_append,
    List.filterMap_cons, tcpColumns?_of_forTcp hheader, List.filterMap_append,
    filterMap_not_forTcp hbetween, List.nil_append, List.filterMap_cons,
    tcpColumns?_of_forTcp hvalues, hnames.words_eq, hentries.words_eq]

theorem retransmits_of_columns {names entries : List (List Char)} {rest : List (List (List Char))}
    (h : ((lines table).filter ("Tcp:".toList.isPrefixOf ·)).map words =
      names :: entries :: rest) :
    retransmits table =
      (((names.zip entries).find? (·.1 == "RetransSegs".toList)).map (counter ·.2)).getD 0 := by
  obtain ⟨header, _, hlines, rfl, hrest⟩ := List.map_eq_cons_iff.1 h
  obtain ⟨values, _, rfl, rfl, _⟩ := List.map_eq_cons_iff.1 hrest
  rw [retransmits, hlines]
  dsimp only
  cases ((words header).zip (words values)).find? (·.1 == "RetransSegs".toList) <;> rfl

theorem retransmits_reads {names entries : List (List Char)} {place : ℕ}
    (hshows : ShowsTcp names entries table) (hnodup : names.Nodup)
    (hplace : names[place]? = some "RetransSegs".toList) :
    Reads entries[place]? (retransmits table) := by
  obtain ⟨label, mark, rest, hlabel, hcolumns⟩ := hshows.exists_columns
  rw [retransmits_of_columns hcolumns, List.zip_cons_cons,
    List.find?_cons_of_neg (by simpa using hlabel), find?_zip hnodup hplace]
  cases entries[place]? with
  | none => exact .wanting
  | some entry => exact reads_counter entry

/-! ## Both tables -/

/-- Both tables are read back from what they were laid out from, whatever else stands in them. -/
theorem tables_read_back :
    (∀ {first second : List Char} {rows : List (List Char × Option Device)} {table : List Char},
      Lined (first :: second :: rows.map Prod.fst) table → (∀ row ∈ rows, Row row.1 row.2) →
      interfaces table =
        ((rows.filterMap Prod.snd).filter (·.name ≠ "lo".toList)).map Device.interface) ∧
    (∀ {front extra back : List (List Char)} {table longer : List Char},
      Lined (front ++ back) table → Lined (front ++ (extra ++ back)) longer →
      (∀ line ∈ extra, PassedOver line) →
      (2 ≤ front.length ∨ ∀ line ∈ (front ++ back).take 2, PassedOver line) →
      interfaces longer = interfaces table) ∧
    ∀ {names entries : List (List Char)} {place : ℕ} {table : List Char},
      ShowsTcp names entries table → names.Nodup →
      names[place]? = some "RetransSegs".toList →
      Reads entries[place]? (retransmits table) :=
  ⟨interfaces_eq, interfaces_insert, retransmits_reads⟩

/-- Two devices beside the loopback, and the same with two more lines between them that show none;
in the other table, lines of other protocols before and between the two lines for TCP, and a third
line for TCP behind them. -/
theorem tables_read_back_eth :
    let loopback := "    lo: 1000      10 0 0 0 0 0 0     1000 10 0".toList
    let wired := "  eth0:123456    789 0 0 0 0 0 0   654321 987".toList
    let wireless := "wlan0: 18446744073709551615 4 0 0 0 0 0 0 6 5 7 8".toList
    let headers := ["Inter-|   Receive".toList, " face |bytes packets".toList]
    let others := ["-".toList, " tun0: 1 2 3".toList]
    let table := unlines (headers ++ [loopback, wired, wireless])
    let longer := unlines (headers ++ [loopback] ++ (others ++ [wired, wireless]))
    interfaces table =
        [⟨"eth0", 123456, 789, 654321, 987⟩, ⟨"wlan0", 18446744073709551615, 4, 6, 5⟩] ∧
      interfaces longer = interfaces table ∧
      Reads (some "42".toList) (retransmits
        "Ip: 1\nTcp: Min RetransSegs In\nTcpExt: 8\nIp: 2\nTcp: 200 42 0\nTcp: 1 2 3".toList) := by
  intro loopback wired wireless headers others table longer
  let loopbackDevice : Device :=
    { name := "lo".toList, counters := [1000, 10, 0, 0, 0, 0, 0, 0, 1000, 10, 0],
      isWord := ⟨by decide, solid_of_all (by decide)⟩, no_colon := by decide,
      ten_le := by decide }
  let wiredDevice : Device :=
    { name := "eth0".toList, counters := [123456, 789, 0, 0, 0, 0, 0, 0, 654321, 987],
      isWord := ⟨by decide, solid_of_all (by decide)⟩, no_colon := by decide,
      ten_le := by decide }
  let wirelessDevice : Device :=
    { name := "wlan0".toList, counters := [18446744073709551615, 4, 0, 0, 0, 0, 0, 0, 6, 5, 7, 8],
      isWord := ⟨by decide, solid_of_all (by decide)⟩, no_colon := by decide,
      ten_le := by decide }
  have hloopback : loopbackDevice.Shows loopback :=
    @Device.Shows.intro loopbackDevice "    ".toList
      " 1000      10 0 0 0 0 0 0     1000 10 0".toList (blanks_of_all (by decide))
      (words_eq_iff.1 (by decide +kernel))
  have hwired : wiredDevice.Shows wired :=
    @Device.Shows.intro wiredDevice "  ".toList "123456    789 0 0 0 0 0 0   654321 987".toList
      (blanks_of_all (by decide)) (words_eq_iff.1 (by decide +kernel))
  have hwireless : wirelessDevice.Shows wireless :=
    @Device.Shows.intro wirelessDevice [] " 18446744073709551615 4 0 0 0 0 0 0 6 5 7 8".toList
      (List.forall_mem_nil _) (words_eq_iff.1 (by decide +kernel))
  have hothers : ∀ line ∈ others, PassedOver line :=
    List.forall_mem_cons.2 ⟨.plain (by decide), List.forall_mem_singleton.2
      (@PassedOver.short " tun0".toList " 1 2 3".toList _ (by decide) (words_eq_iff.1 rfl)
        (by decide))⟩
  refine ⟨?_, ?_, ?_⟩
  · have hread := @tables_read_back.1 "Inter-|   Receive".toList " face |bytes packets".toList
      [(loopback, some loopbackDevice), (wired, some wiredDevice),
        (wireless, some wirelessDevice)] table ⟨by decide +kernel, .inl rfl⟩
      (List.forall_mem_cons.2 ⟨.device hloopback, List.forall_mem_cons.2 ⟨.device hwired,
        List.forall_mem_singleton.2 (.device hwireless)⟩⟩)
    rw [hread]
    decide +kernel
  · exact @tables_read_back.2.1 (headers ++ [loopback]) others [wired, wireless] table longer
      ⟨by decide +kernel, .inl rfl⟩ ⟨by decide +kernel, .inl rfl⟩ hothers (.inl (by decide))
  · have hshows : ShowsTcp ["Min".toList, "RetransSegs".toList, "In".toList]
        ["200".toList, "42".toList, "0".toList]
        "Ip: 1\nTcp: Min RetransSegs In\nTcpExt: 8\nIp: 2\nTcp: 200 42 0\nTcp: 1 2 3".toList :=
      @ShowsTcp.intro _ _ ["Ip: 1".toList] ["TcpExt: 8".toList, "Ip: 2".toList]
        ["Tcp: 1 2 3".toList] "Tcp: Min RetransSegs In".toList "Tcp: 200 42 0".toList
        "Tcp:".toList "Tcp:".toList _ ⟨by decide +kernel, .inr (by decide +kernel)⟩
        (by unfold ForTcp; decide) (by unfold ForTcp; decide) (by unfold ForTcp; decide)
        (by unfold ForTcp; decide) (words_eq_iff.1 (by decide)) (words_eq_iff.1 (by decide))
    exact @tables_read_back.2.2 _ _ 1 _ hshows (by decide) rfl

end LinkMeter.Counters
