import LinkMeter.Proofs.Number.Numerals
import Mathlib.Data.List.TakeWhile

/-!
# Addresses that are written and read

Every address is read back from its text (`Address.ofText?_text`).

An IPv6 address is written in one of three ways, and what the reader meets
differs.  A mapped IPv4 address stands behind one group.  Without a run of zeros
to shorten, there are eight groups and the reader has no room for more.  Else
the groups before the run end at its two colons and the groups behind it at the
end of the text; the run is what is missing from eight
(`Ipv6.exists_longestZeroRun`).

An IPv4 address is looked for before each group.  There is none in a text
without a point (`Ipv4.readHead?_eq_none`), and groups have no points.
-/

namespace LinkMeter

/-! ## IPv4 -/

namespace Ipv4

theorem readOctet?_render (octet : UInt8) {rest : List Char}
    (hrest : Stops Decimal.digitValue? rest) :
    readOctet? (Decimal.render octet.toNat ++ rest) = some (octet, rest) := by
  have hlt : octet.toNat < 256 := octet.toNat_lt
  have hlength : (places 10 octet.toNat).length ≤ 3 :=
    length_places_le (by decide) (by decide) (by omega)
  have hempty : (places 10 octet.toNat).isEmpty = false := by simpa using places_ne_nil
  have hzero : ¬ ((places 10 octet.toNat).head? = some 0 ∧
      1 < (places 10 octet.toNat).length) :=
    fun h => absurd (length_places_of_head? h.1) h.2.ne'
  unfold readOctet?
  rw [spanDigits_render octet.toNat hrest]
  dsimp only
  rw [digitsValue_places, if_neg (by simp [hempty, hlength, hlt]), if_neg (by simpa using hzero),
    UInt8.ofNat_toNat]

theorem stops_point (rest : List Char) : Stops Decimal.digitValue? ('.' :: rest) := by
  rintro c ⟨⟩
  decide

theorem readHead?_render (address : Ipv4) : readHead? address.render = some (address, []) := by
  have hfourth : readOctet? (Decimal.render address.fourth.toNat) = some (address.fourth, []) := by
    rw [← List.append_nil (Decimal.render _)]
    exact readOctet?_render _ nofun
  simp only [render, readHead?, readDotOctet?, List.append_assoc, List.cons_append,
    readOctet?_render _ (stops_point _), hfourth, Option.bind_eq_bind, Option.bind_some,
    Option.pure_def]

theorem suffix_of_readOctet? {text rest : List Char} {octet : UInt8}
    (h : readOctet? text = some (octet, rest)) : rest <:+ text := by
  unfold readOctet? at h
  have hsuffix := spanDigits_suffix Decimal.digitValue? text
  grind

/-- An address has points between its octets. -/
theorem readHead?_eq_none {text : List Char} (h : '.' ∉ text) : readHead? text = none := by
  unfold readHead?
  cases hfirst : readOctet? text with
  | none => rfl
  | some found =>
      obtain ⟨first, rest⟩ := found
      have hrest : '.' ∉ rest := fun hmem => h ((suffix_of_readOctet? hfirst).mem hmem)
      cases rest with
      | nil => rfl
      | cons c rest =>
          have hc : c ≠ '.' := fun heq => hrest (heq ▸ List.mem_cons_self)
          have hsecond : readDotOctet? (c :: rest) = none := by
            unfold readDotOctet?
            split
            · next heq => exact absurd (List.cons.inj heq).1 hc
            · rfl
          simp only [Option.bind_eq_bind, Option.bind_some, hsecond, Option.bind_none]

end Ipv4

/-! ## The groups of an IPv6 address -/

namespace Ipv6

theorem readGroup?_hexNumeral (group : UInt16) {rest : List Char} (hrest : Stops hexValue? rest) :
    readGroup? (hexNumeral group.toNat ++ rest) = some (group, rest) := by
  have hlt : group.toNat < 65536 := group.toNat_lt
  have hlength : (places 16 group.toNat).length ≤ 4 :=
    length_places_le (by decide) (by decide) (by omega)
  have hempty : (places 16 group.toNat).isEmpty = false := by simpa using places_ne_nil
  unfold readGroup?
  rw [spanDigits_hexNumeral group.toNat hrest]
  dsimp only
  rw [if_neg (by simp [hempty, hlength]), digitsValue_places, UInt16.ofNat_toNat]

/-- Groups behind a colon each. -/
def renderTail (groups : List UInt16) : List Char :=
  groups.flatMap fun group => ':' :: hexNumeral group.toNat

theorem renderGroups_cons (group : UInt16) (groups : List UInt16) :
    renderGroups (group :: groups) = hexNumeral group.toNat ++ renderTail groups := by
  induction groups generalizing group with
  | nil => simp [renderGroups, renderTail]
  | cons next rest ih => simp [renderGroups, ih, renderTail]

theorem point_notMem_hexNumeral (n : ℕ) : '.' ∉ hexNumeral n := by
  rw [hexNumeral_eq, List.mem_map]
  rintro ⟨digit, hdigit, hpoint⟩
  have hall : ∀ digit < 16, hexDigit digit ≠ '.' := by decide
  exact hall digit (lt_of_mem_places (by decide) hdigit) hpoint

theorem point_notMem_renderTail (groups : List UInt16) : '.' ∉ renderTail groups := by
  simp only [renderTail, List.mem_flatMap, List.mem_cons, not_exists, not_and, not_or]
  exact fun group _ => ⟨by decide, point_notMem_hexNumeral group.toNat⟩

theorem point_notMem_renderGroups (groups : List UInt16) : '.' ∉ renderGroups groups := by
  cases groups with
  | nil => exact List.not_mem_nil
  | cons group groups =>
      rw [renderGroups_cons, List.mem_append, not_or]
      exact ⟨point_notMem_hexNumeral _, point_notMem_renderTail _⟩

/-- What follows the groups of a part: nothing, or the colons of the shortened run. -/
def EndsPart (rest : List Char) : Prop := rest = [] ∨ ∃ back, rest = ':' :: ':' :: back

theorem EndsPart.stops {rest : List Char} (h : EndsPart rest) : Stops hexValue? rest := by
  obtain rfl | ⟨back, rfl⟩ := h
  · rintro c ⟨⟩
  · rintro c ⟨⟩
    decide

theorem stops_renderTail (groups : List UInt16) {rest : List Char} (h : EndsPart rest) :
    Stops hexValue? (renderTail groups ++ rest) := by
  cases groups with
  | nil => exact h.stops
  | cons group groups =>
      rintro c ⟨⟩
      decide

/-- No group stands where a part ends. -/
theorem readGroups_of_endsPart {rest : List Char} (h : EndsPart rest) (isFirst : Bool)
    (limit : ℕ) : readGroups isFirst limit rest = ([], false, rest) := by
  obtain rfl | ⟨back, rfl⟩ := h <;> cases limit <;> cases isFirst <;> simp [readGroups,
    afterSeparator?, Ipv4.readHead?, Ipv4.readOctet?, readGroup?, spanDigits,
    show Decimal.digitValue? ':' = none from rfl, show hexValue? ':' = none from rfl]

/-- One group, behind its colon if it needs one. -/
theorem readGroups_step {isFirst : Bool} {text rest : List Char} {group : UInt16}
    (hafter : afterSeparator? isFirst text = some (hexNumeral group.toNat ++ rest))
    (hnone : Ipv4.readHead? (hexNumeral group.toNat ++ rest) = none)
    (hrest : Stops hexValue? rest) (limit : ℕ) :
    readGroups isFirst (limit + 1) text =
      (group :: (readGroups false limit rest).1, (readGroups false limit rest).2) := by
  rw [readGroups, hafter, Option.bind_some, hnone, ite_self]
  dsimp only
  rw [Option.bind_some, readGroup?_hexNumeral group hrest]

/-- There is no IPv4 address at the head of groups. -/
theorem readHead?_groups (group : UInt16) (groups : List UInt16) {rest : List Char}
    (hpoint : '.' ∉ rest) :
    Ipv4.readHead? (hexNumeral group.toNat ++ (renderTail groups ++ rest)) = none :=
  Ipv4.readHead?_eq_none fun hmem => (List.mem_append.1 hmem).elim (point_notMem_hexNumeral _)
    fun hmem => (List.mem_append.1 hmem).elim (point_notMem_renderTail _) hpoint

theorem readGroups_renderTail {groups : List UInt16} {limit : ℕ} (hlimit : groups.length ≤ limit)
    {rest : List Char} (h : EndsPart rest) (hpoint : '.' ∉ rest) :
    readGroups false limit (renderTail groups ++ rest) = (groups, false, rest) := by
  induction groups generalizing limit with
  | nil => exact readGroups_of_endsPart h false limit
  | cons group groups ih =>
      obtain ⟨limit, rfl⟩ : ∃ fewer, limit = fewer + 1 :=
        ⟨limit - 1, by rw [List.length_cons] at hlimit; omega⟩
      have hafter : afterSeparator? false (renderTail (group :: groups) ++ rest) =
          some (hexNumeral group.toNat ++ (renderTail groups ++ rest)) := by
        simp [afterSeparator?, renderTail]
      rw [readGroups_step hafter (readHead?_groups group groups hpoint) (stops_renderTail groups h),
        ih (Nat.le_of_succ_le_succ hlimit)]

/-- A part is read to its end. -/
theorem readGroups_renderGroups {groups : List UInt16} {limit : ℕ}
    (hlimit : groups.length ≤ limit) {rest : List Char} (h : EndsPart rest)
    (hpoint : '.' ∉ rest) :
    readGroups true limit (renderGroups groups ++ rest) = (groups, false, rest) := by
  cases groups with
  | nil => exact readGroups_of_endsPart h true limit
  | cons group groups =>
      obtain ⟨limit, rfl⟩ : ∃ fewer, limit = fewer + 1 :=
        ⟨limit - 1, by rw [List.length_cons] at hlimit; omega⟩
      have hafter : afterSeparator? true (renderGroups (group :: groups) ++ rest) =
          some (hexNumeral group.toNat ++ (renderTail groups ++ rest)) := by
        rw [renderGroups_cons, List.append_assoc]
        rfl
      rw [readGroups_step hafter (readHead?_groups group groups hpoint) (stops_renderTail groups h),
        readGroups_renderTail (Nat.le_of_succ_le_succ hlimit) h hpoint]

/-! ## The run of zeros -/

/-- The run that is shortened stands at its place and is made of zeros. -/
theorem exists_longestZeroRun (start : ℕ) (groups : List UInt16) :
    ∃ front back, (longestZeroRun start groups).1 = start + front.length ∧
      groups = front ++ List.replicate (longestZeroRun start groups).2 0 ++ back := by
  induction groups generalizing start with
  | nil => exact ⟨[], [], rfl, rfl⟩
  | cons group rest ih =>
      unfold longestZeroRun
      dsimp only
      split
      · -- the run begins here
        refine ⟨[], (group :: rest).dropWhile (· == 0), rfl, ?_⟩
        have hzeros : (group :: rest).takeWhile (· == 0) =
            List.replicate (zeroRun (group :: rest)) 0 :=
          List.eq_replicate_of_mem fun found hfound => by
            simpa using List.mem_takeWhile_imp hfound
        rw [List.nil_append, ← hzeros, List.takeWhile_append_dropWhile]
      · obtain ⟨front, back, hstart, hgroups⟩ := ih (start + 1)
        refine ⟨group :: front, back, ?_, ?_⟩
        · rw [hstart, List.length_cons]
          omega
        · rw [List.cons_append, List.cons_append, ← hgroups]

/-! ## Whole addresses -/

theorem groups_of_mapped? {address : Ipv6} {inner : Ipv4} (h : address.mapped? = some inner) :
    address.groups = [0, 0, 0, 0, 0, 0xFFFF] ++ inner.groups := by
  -- a group is made up of its two octets
  have hword : ∀ word : UInt16,
      (word >>> 8).toUInt8.toUInt16 * 256 + word.toUInt8.toUInt16 = word := by
    intro word
    have hlt := word.toNat_lt
    apply UInt16.toNat_inj.1
    simp [Nat.shiftRight_eq_div_pow]
    omega
  unfold mapped? at h
  split at h
  case h_1 high low heq =>
    cases h
    simp only [heq, Ipv4.groups, hword]
    rfl
  case h_2 => cases h

/-- The eight groups of an address without a run to shorten. -/
theorem readHead?_renderGroups (address : Ipv6) :
    readHead? (renderGroups address.groups) = some (address, []) := by
  have hread : readGroups true 8 (renderGroups address.groups) = (address.groups, false, []) := by
    rw [← List.append_nil (renderGroups _)]
    exact readGroups_renderGroups (Nat.le_of_eq address.length_eq) (.inl rfl) List.not_mem_nil
  unfold readHead?
  rw [hread]
  dsimp only
  rw [dif_pos address.length_eq]

/-- The groups around a shortened run, the second part as it is read. -/
theorem readHead?_shortened {address : Ipv6} {front back : List UInt16} {text : List Char}
    {endsInV4 : Bool} {zeros : ℕ} (hzeros : 0 < zeros)
    (hgroups : address.groups = front ++ List.replicate zeros 0 ++ back)
    (hfront : readGroups true 8 (renderGroups front ++ ':' :: ':' :: text) =
      (front, false, ':' :: ':' :: text))
    (hback : readGroups true (7 - front.length) text = (back, endsInV4, [])) :
    readHead? (renderGroups front ++ ':' :: ':' :: text) = some (address, []) := by
  have hlength : front.length + zeros + back.length = 8 := by
    rw [← address.length_eq, hgroups]
    simp [Nat.add_assoc]
  -- the reader fills in as many zeros as the two parts lack
  have hmissing : 8 - front.length - back.length = zeros := by omega
  have hroom : (front ++ List.replicate (8 - front.length - back.length) 0 ++ back).length = 8 := by
    rw [hmissing, ← hgroups, address.length_eq]
  unfold readHead?
  simp only [hfront, hback]
  rw [dif_neg (by omega), if_neg Bool.false_ne_true, dif_pos hroom]
  simp only [hmissing, ← hgroups]

/-- The second part of a mapped address. -/
theorem readGroups_mapped (inner : Ipv4) :
    readGroups true 7 (['f', 'f', 'f', 'f', ':'] ++ inner.render) =
      (0xFFFF :: inner.groups, true, []) := by
  have hnumeral : hexNumeral (0xFFFF : UInt16).toNat = ['f', 'f', 'f', 'f'] := by
    rw [hexNumeral_eq]
    rfl
  -- six groups are left, so an address in place of two of them is looked for
  have hembedded : readGroups false 6 (':' :: inner.render) = (inner.groups, true, []) := by
    rw [readGroups, afterSeparator?, if_neg (by decide), if_neg (by decide), Option.bind_some,
      inner.readHead?_render]
  have hafter : afterSeparator? true (['f', 'f', 'f', 'f', ':'] ++ inner.render) =
      some (hexNumeral (0xFFFF : UInt16).toNat ++ ':' :: inner.render) := by
    rw [hnumeral]
    rfl
  rw [readGroups_step hafter (by rw [hnumeral]; rfl) (by rintro c ⟨⟩; decide), hembedded]

theorem readHead?_render (address : Ipv6) : readHead? address.render = some (address, []) := by
  unfold render
  split
  case h_1 inner hmapped =>
    have hgroups : address.groups =
        [] ++ List.replicate 5 0 ++ (0xFFFF :: inner.groups) := groups_of_mapped? hmapped
    exact readHead?_shortened (by decide) hgroups (readGroups_of_endsPart (.inr ⟨_, rfl⟩) true 8)
      (readGroups_mapped inner)
  case h_2 =>
    dsimp only
    split
    case isTrue => exact address.readHead?_renderGroups
    case isFalse hrun =>
      obtain ⟨front, back, hstart, hgroups⟩ := exists_longestZeroRun 0 address.groups
      generalize longestZeroRun 0 address.groups = run at hrun hstart hgroups ⊢
      rw [Nat.zero_add] at hstart
      have hlength : front.length + run.2 + back.length = 8 := by
        rw [← address.length_eq, hgroups]
        simp [Nat.add_assoc]
      have hfront : address.groups.take run.1 = front := by
        rw [hgroups, List.append_assoc, hstart, List.take_left]
      have hback : address.groups.drop (run.1 + run.2) = back := by
        rw [hgroups]
        exact List.drop_left' (by rw [hstart, List.length_append, List.length_replicate])
      have hpoint : '.' ∉ ':' :: ':' :: renderGroups back := by
        simp [point_notMem_renderGroups]
      have hread : readGroups true (7 - front.length) (renderGroups back) = (back, false, []) := by
        rw [← List.append_nil (renderGroups back)]
        exact readGroups_renderGroups (by omega) (.inl rfl) List.not_mem_nil
      rw [hfront, hback]
      exact readHead?_shortened (by omega) hgroups
        (readGroups_renderGroups (by omega) (.inr ⟨_, rfl⟩) hpoint) hread

/-- No IPv4 address stands at the head of an IPv6 one. -/
theorem v4_readHead?_render (address : Ipv6) : Ipv4.readHead? address.render = none := by
  unfold render
  split
  case h_1 => rfl
  case h_2 =>
    refine Ipv4.readHead?_eq_none ?_
    dsimp only
    split
    · exact point_notMem_renderGroups _
    · simp [point_notMem_renderGroups]

end Ipv6

theorem Address.ofText?_text (address : Address) : Address.ofText? address.text = some address := by
  unfold Address.ofText? Address.text Address.read?
  rw [String.toList_ofList]
  cases address with
  | v4 inner => simp only [Address.render, inner.readHead?_render]
  | v6 inner =>
      simp only [Address.render, inner.v4_readHead?_render, inner.readHead?_render, Option.map_some]

/-- Of two runs of one length the first is shortened. -/
example : (Address.v6 ⟨[0x2001, 0xDB8, 0, 0, 1, 0, 0, 1], rfl⟩).text = "2001:db8::1:0:0:1" := by
  cbv

end LinkMeter
