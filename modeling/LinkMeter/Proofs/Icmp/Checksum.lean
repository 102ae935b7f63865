import LinkMeter.Proofs.Icmp.Matching
import Mathlib.Algebra.Order.BigOperators.Group.List
import Mathlib.Algebra.Order.Ring.Nat
import Mathlib.Data.List.Range

/-!
# The checksum of an echo request

Whoever receives a request adds up its 16-bit words, the checksum among them, and adds every carry
back in (`onesSum`).  The sum is `0xFFFF` for the requests that are built.

Adding carries back in means counting modulo `0xFFFF`, where zero has two forms: of the multiples
of `0xFFFF`, only zero itself is folded to `0`, and all others to `0xFFFF` (`fold_eq_iff`).  So it
does not matter whether the carries are added back word by word or all at the end
(`fold_fold_add`), and the complement of a sum that is not zero completes it to `0xFFFF`
(`fold_add_complement`).

The sender adds in 32 bits and folds at the end (`checksum32`).  That is the same as long as no sum
leaves the 32 bits, which takes more words than a datagram has.
-/

namespace LinkMeter.Icmp

/-! ## Folded sums -/

theorem fold_lt (sum : ℕ) : fold sum < 0x1_0000 := by
  fun_induction fold sum with
  | case1 sum hsmall => exact hsmall
  | case2 sum hlarge ih => exact ih

theorem fold_mod (sum : ℕ) : fold sum % 0xFFFF = sum % 0xFFFF := by
  fun_induction fold sum with
  | case1 sum hsmall => rfl
  | case2 sum hlarge ih =>
      rw [ih]
      omega

theorem fold_eq_zero_iff (sum : ℕ) : fold sum = 0 ↔ sum = 0 := by
  fun_induction fold sum with
  | case1 sum hsmall => rfl
  | case2 sum hlarge ih =>
      rw [ih]
      omega

theorem fold_of_lt {sum : ℕ} (hsmall : sum < 0x1_0000) : fold sum = sum := by
  rw [fold, if_pos hsmall]

/-- A folded sum is the sum modulo `0xFFFF`, and zero only for zero. -/
theorem fold_eq_iff {sum folded : ℕ} (hfolded : folded < 0x1_0000) :
    fold sum = folded ↔ sum % 0xFFFF = folded % 0xFFFF ∧ (sum = 0 ↔ folded = 0) := by
  have hlt := fold_lt sum
  have hmod := fold_mod sum
  have hzero := fold_eq_zero_iff sum
  constructor
  · rintro rfl
    exact ⟨hmod.symm, hzero.symm⟩
  · rintro ⟨hsame, hnone⟩
    omega

theorem fold_fold_add (first second : ℕ) : fold (fold first + second) = fold (first + second) := by
  rw [fold_eq_iff (fold_lt _)]
  have hmod := fold_mod first
  have hzero := fold_eq_zero_iff first
  have hmodAll := fold_mod (first + second)
  have hzeroAll := fold_eq_zero_iff (first + second)
  constructor <;> omega

theorem fold_add_complement {sum : ℕ} (hsum : sum ≠ 0) :
    fold (sum + (0xFFFF - fold sum)) = 0xFFFF := by
  rw [fold_eq_iff (by decide)]
  have hlt := fold_lt sum
  have hmod := fold_mod sum
  constructor <;> omega

/-! ## The words of a packet -/

/-- The word of a packet at a place.  A byte behind the end counts as zero. -/
def wordAt (packet : Bytes) (place : ℕ) : UInt16 :=
  wordOf (packet.getD (2 * place) 0) (packet.getD (2 * place + 1) 0)

/-- The words of a packet, which is padded with a zero byte if its length is odd. -/
def paddedWords (packet : Bytes) : List UInt16 :=
  (List.range ((packet.length + 1) / 2)).map (wordAt packet)

theorem paddedWords_cons_cons (high low : UInt8) (rest : Bytes) :
    paddedWords (high :: low :: rest) = wordOf high low :: paddedWords rest := by
  have hcount : ((high :: low :: rest).length + 1) / 2 = (rest.length + 1) / 2 + 1 := by
    simp only [List.length_cons]
    omega
  rw [paddedWords, hcount, List.range_succ_eq_map, List.map_cons, List.map_map]
  rfl

theorem paddedWords_singleton (high : UInt8) : paddedWords [high] = [wordOf high 0] := by
  rw [paddedWords, List.length_singleton, List.range_one, List.map_singleton]
  rfl

theorem words_eq (packet : Bytes) : words packet = (paddedWords packet).map UInt16.toNat := by
  fun_induction words packet with
  | case1 => rfl
  | case2 high =>
      rw [paddedWords_singleton, List.map_singleton, toNat_wordOf, UInt8.toNat_zero, Nat.add_zero]
  | case3 high low rest ih =>
      rw [ih, paddedWords_cons_cons, List.map_cons, toNat_wordOf]

theorem length_words (packet : Bytes) : (words packet).length = (packet.length + 1) / 2 := by
  rw [words_eq, List.length_map, paddedWords, List.length_map, List.length_range]

theorem lt_of_mem_words {packet : Bytes} {word : ℕ} (hword : word ∈ words packet) :
    word < 0x1_0000 := by
  rw [words_eq] at hword
  obtain ⟨padded, -, rfl⟩ := List.mem_map.mp hword
  exact padded.toNat_lt

theorem wordBytes_eq (word : UInt16) : wordBytes word = Bytes.big 2 word.toNat := by
  have hhigh : (word / 256).toUInt8 = .ofNat (word.toNat / 256 % 256) := by
    rw [← UInt8.toNat_inj, UInt16.toNat_toUInt8, UInt16.toNat_div, UInt8.toNat_ofNat']
    exact (Nat.mod_mod _ _).symm
  have hlow : (word % 256).toUInt8 = .ofNat (word.toNat % 256) := by
    rw [← UInt8.toNat_inj, UInt16.toNat_toUInt8, UInt16.toNat_mod, UInt8.toNat_ofNat']
    rfl
  rw [wordBytes, hhigh, hlow]
  rfl

theorem words_wordBytes (word : UInt16) (rest : Bytes) :
    words (wordBytes word ++ rest) = word.toNat :: words rest := by
  rw [wordBytes, List.cons_append, List.cons_append, List.nil_append, words, ← toNat_wordOf,
    wordOf_wordBytes]

/-- The checksum is a word of its own. -/
theorem words_withChecksum (sum : UInt16) (isV6 : Bool) (identifier sequence : UInt16)
    (body : Bytes) :
    words (withChecksum sum isV6 identifier sequence body) =
      (requestType isV6).toNat * 256 :: sum.toNat :: identifier.toNat :: sequence.toNat ::
        words body := by
  rw [withChecksum, words, List.append_assoc, List.append_assoc, words_wordBytes, words_wordBytes,
    words_wordBytes, UInt8.toNat_zero, Nat.add_zero]

/-! ## Receiving -/

/-- Ones'-complement addition: a carry is added back in at the low end. -/
def addCarried (first second : UInt16) : UInt16 :=
  let sum := first.toNat + second.toNat
  .ofNat (sum % 0x1_0000 + sum / 0x1_0000)

/-- The ones'-complement sum of a string of words. -/
def onesSum (summands : List UInt16) : UInt16 := summands.foldl addCarried 0

theorem toNat_addCarried (first second : UInt16) :
    (addCarried first second).toNat = fold (first.toNat + second.toNat) := by
  have hfirst := first.toNat_lt
  have hsecond := second.toNat_lt
  have hsum : (first.toNat + second.toNat) % 0x1_0000 + (first.toNat + second.toNat) / 0x1_0000 <
      0x1_0000 := by omega
  rw [addCarried, UInt16.toNat_ofNat_of_lt' hsum, eq_comm, fold_eq_iff hsum]
  constructor <;> omega

theorem toNat_foldl_addCarried (summands : List UInt16) (start : UInt16) :
    (summands.foldl addCarried start).toNat =
      fold (start.toNat + (summands.map UInt16.toNat).sum) := by
  induction summands generalizing start with
  | nil => exact (fold_of_lt start.toNat_lt).symm
  | cons word rest ih =>
      rw [List.foldl_cons, ih, toNat_addCarried, fold_fold_add, List.map_cons, List.sum_cons,
        Nat.add_assoc]

/-- Adding carries back in as they come is folding at the end. -/
theorem toNat_onesSum (packet : Bytes) :
    (onesSum (paddedWords packet)).toNat = fold (words packet).sum := by
  rw [onesSum, toNat_foldl_addCarried, words_eq, UInt16.toNat_zero, Nat.zero_add]

/-! ## Sending -/

/-- The words of a packet but its checksum, added up in 32 bits. -/
def wordSum32 (packet : Bytes) : UInt32 :=
  ((words packet).eraseIdx 1).foldl (fun sum word => sum + .ofNat word) 0

theorem toNat_high32 (sum : UInt32) : (sum >>> 16).toNat = sum.toNat / 0x1_0000 := by
  rw [UInt32.toNat_shiftRight]
  exact Nat.shiftRight_eq_div_pow _ _

theorem toNat_halves32 (sum : UInt32) :
    ((sum >>> 16) + (sum &&& 0xFFFF)).toNat = sum.toNat / 0x1_0000 + sum.toNat % 0x1_0000 := by
  have hsum := sum.toNat_lt
  have hlow : (sum &&& 0xFFFF).toNat = sum.toNat % 0x1_0000 := by
    rw [UInt32.toNat_and]
    exact Nat.and_two_pow_sub_one_eq_mod _ 16
  rw [UInt32.toNat_add, toNat_high32, hlow]
  omega

theorem shiftRight_eq_zero_iff (sum : UInt32) : sum >>> 16 = 0 ↔ sum.toNat < 0x1_0000 := by
  rw [← UInt32.toNat_inj, toNat_high32, UInt32.toNat_zero]
  omega

/-- A sum of 32 bits with its carries out of the low half added back in. -/
def fold32 (sum : UInt32) : UInt32 :=
  if sum >>> 16 = 0 then sum else fold32 ((sum >>> 16) + (sum &&& 0xFFFF))
termination_by sum.toNat
decreasing_by
  rename_i hlarge
  rw [shiftRight_eq_zero_iff] at hlarge
  rw [toNat_halves32]
  omega

/-- The checksum as it is computed in 32 bits. -/
def checksum32 (packet : Bytes) : UInt16 := ~~~ (fold32 (wordSum32 packet)).toUInt16

theorem toNat_fold32 (sum : UInt32) : (fold32 sum).toNat = fold sum.toNat := by
  fun_induction fold32 sum with
  | case1 sum hsmall => exact (fold_of_lt ((shiftRight_eq_zero_iff sum).mp hsmall)).symm
  | case2 sum hlarge ih =>
      rw [shiftRight_eq_zero_iff] at hlarge
      rw [ih, toNat_halves32]
      conv_rhs => rw [fold, if_neg hlarge]

theorem toNat_foldl_add32 {summands : List ℕ} {start : UInt32}
    (hroom : start.toNat + summands.sum < 2 ^ 32) :
    (summands.foldl (fun sum word => sum + .ofNat word) start).toNat =
      start.toNat + summands.sum := by
  induction summands generalizing start with
  | nil => rfl
  | cons word rest ih =>
      rw [List.sum_cons] at hroom
      have hword : (UInt32.ofNat word).toNat = word := UInt32.toNat_ofNat_of_lt' (by
        show word < 2 ^ 32
        omega)
      have hstart : (start + .ofNat word).toNat = start.toNat + word := by
        rw [UInt32.toNat_add, hword]
        exact Nat.mod_eq_of_lt (by omega)
      rw [List.foldl_cons, ih (by omega), hstart, List.sum_cons, Nat.add_assoc]

/-- Packets shorter than `2 ^ 17` bytes have too few words for their sum to leave 32 bits. -/
theorem sum_words_lt {packet : Bytes} (hlength : packet.length < 2 ^ 17) :
    ((words packet).eraseIdx 1).sum < 2 ^ 32 := by
  have hsub : ((words packet).eraseIdx 1).Sublist (words packet) := List.eraseIdx_sublist _ _
  have hcount : ((words packet).eraseIdx 1).length ≤ 0x1_0000 := by
    refine hsub.length_le.trans ?_
    rw [length_words]
    omega
  calc ((words packet).eraseIdx 1).sum
      ≤ ((words packet).eraseIdx 1).length • 0xFFFF :=
        List.sum_le_card_nsmul _ _ fun word hword =>
          Nat.le_of_lt_succ (lt_of_mem_words (hsub.subset hword))
    _ ≤ 0x1_0000 • 0xFFFF := Nat.mul_le_mul_right _ hcount
    _ < 2 ^ 32 := by decide

theorem toNat_checksum (packet : Bytes) :
    (checksum packet).toNat = 0xFFFF - fold ((words packet).eraseIdx 1).sum :=
  UInt16.toNat_ofNat_of_lt' (Nat.lt_of_le_of_lt (Nat.sub_le _ _) (by decide))

/-- Nothing is lost by adding in 32 bits. -/
theorem checksum32_eq {packet : Bytes} (hlength : packet.length < 2 ^ 17) :
    checksum32 packet = checksum packet := by
  have hsum : (wordSum32 packet).toNat = ((words packet).eraseIdx 1).sum := by
    have hroom : (0 : UInt32).toNat + ((words packet).eraseIdx 1).sum < 2 ^ 32 := by
      rw [UInt32.toNat_zero, Nat.zero_add]
      exact sum_words_lt hlength
    rw [wordSum32, toNat_foldl_add32 hroom, UInt32.toNat_zero, Nat.zero_add]
  rw [← UInt16.toNat_inj, toNat_checksum, checksum32, UInt16.toNat_not, UInt32.toNat_toUInt16,
    toNat_fold32, hsum, Nat.mod_eq_of_lt (fold_lt _)]
  rfl

/-! ## Requests -/

theorem withChecksum_eq (sum : UInt16) (isV6 : Bool) (identifier sequence : UInt16) (body : Bytes) :
    withChecksum sum isV6 identifier sequence body =
      [requestType isV6, 0] ++ Bytes.big 2 sum.toNat ++
        (Bytes.big 2 identifier.toNat ++ Bytes.big 2 sequence.toNat) ++ body := by
  rw [withChecksum, wordBytes_eq, wordBytes_eq, wordBytes_eq]
  simp only [List.append_assoc, List.cons_append, List.nil_append]

/-- A checksum leaves its own place out. -/
theorem checksum_withChecksum (sum : UInt16) (isV6 : Bool) (identifier sequence : UInt16)
    (body : Bytes) :
    checksum (withChecksum sum isV6 identifier sequence body) =
      checksum (withChecksum 0 isV6 identifier sequence body) := by
  rw [checksum, checksum, words_withChecksum, words_withChecksum]
  rfl

/-- The checksum completes the sum of all words, since the type of a request is not zero. -/
theorem onesSum_withChecksum (isV6 : Bool) (identifier sequence : UInt16) (body : Bytes) :
    let blank := withChecksum 0 isV6 identifier sequence body
    onesSum (paddedWords (withChecksum (checksum blank) isV6 identifier sequence body)) =
      0xFFFF := by
  intro blank
  have hothers : ((words blank).eraseIdx 1).sum =
      (requestType isV6).toNat * 256 +
        (identifier.toNat + (sequence.toNat + (words body).sum)) := by
    rw [words_withChecksum]
    rfl
  have hsome : ((words blank).eraseIdx 1).sum ≠ 0 := by
    have htype : 0 < (requestType isV6).toNat := by cases isV6 <;> decide
    omega
  rw [← UInt16.toNat_inj, toNat_onesSum, words_withChecksum, toNat_checksum]
  -- what the checksum was taken of is all that is added to it
  have hall : ((requestType isV6).toNat * 256 ::
      (0xFFFF - fold ((words blank).eraseIdx 1).sum) :: identifier.toNat :: sequence.toNat ::
        words body).sum =
      ((words blank).eraseIdx 1).sum + (0xFFFF - fold ((words blank).eraseIdx 1).sum) := by
    simp only [List.sum_cons]
    omega
  rw [hall]
  exact fold_add_complement hsome

/-- An echo request of the IPv4 family, with a body that fits a datagram, carries its type, its
numbers with the high byte first and its body as it is. Its checksum is the one computed in 32 bits,
of the packet while the place of the checksum is still zero as of the packet itself, and no sum
leaves those bits. The receiver who adds up all words, with a zero byte behind an odd last byte,
gets `0xFFFF`. A request of the IPv6 family has another type and no checksum, and is the same
otherwise. -/
theorem echoRequest_verifies (identifier sequence : UInt16) (body : Bytes)
    (hbody : body.length ≤ 65_507) :
    let numbers := Bytes.big 2 identifier.toNat ++ Bytes.big 2 sequence.toNat
    let packet := echoRequest false identifier sequence body
    (∃ sum : UInt16, packet = [8, 0] ++ Bytes.big 2 sum.toNat ++ numbers ++ body ∧
      sum = checksum32 ([8, 0] ++ [0, 0] ++ numbers ++ body) ∧ sum = checksum32 packet) ∧
    ((words packet).eraseIdx 1).sum < 2 ^ 32 ∧
    onesSum (paddedWords packet) = 0xFFFF ∧
    echoRequest true identifier sequence body = [128, 0] ++ [0, 0] ++ numbers ++ body := by
  intro numbers packet
  have hlength : ∀ sum : UInt16,
      (withChecksum sum false identifier sequence body).length < 2 ^ 17 := by
    intro sum
    rw [withChecksum_eq]
    simp only [List.length_append, List.length_cons, List.length_nil, Bytes.length_big]
    omega
  have hblank : withChecksum 0 false identifier sequence body =
      [8, 0] ++ [0, 0] ++ numbers ++ body := withChecksum_eq 0 false identifier sequence body
  refine ⟨⟨checksum (withChecksum 0 false identifier sequence body),
    withChecksum_eq _ false identifier sequence body, ?_, ?_⟩, sum_words_lt (hlength _),
    onesSum_withChecksum false identifier sequence body,
    withChecksum_eq 0 true identifier sequence body⟩
  · rw [← hblank, checksum32_eq (hlength 0)]
  · exact ((checksum32_eq (hlength _)).trans (checksum_withChecksum ..)).symm

/-- A body of three bytes, whose words carry twice. -/
theorem echoRequest_verifies_odd :
    let body : Bytes := [0xFF, 0xFF, 0xFE]
    let packet : Bytes := [8, 0, 0xE5, 0xC7, 0x12, 0x34, 0x02, 0x03, 0xFF, 0xFF, 0xFE]
    body.length ≤ 65_507 ∧ echoRequest false 0x1234 0x0203 body = packet ∧
      checksum32 packet = 0xE5C7 ∧ ((words packet).eraseIdx 1).sum < 2 ^ 32 ∧
      onesSum (paddedWords packet) = 0xFFFF ∧
      echoRequest true 0x1234 0x0203 body =
        [128, 0, 0, 0, 0x12, 0x34, 0x02, 0x03, 0xFF, 0xFF, 0xFE] := by
  intro body packet
  have hbody : body.length ≤ 65_507 := by decide
  obtain ⟨⟨sum, hpacket, hsum, hagain⟩, hroom, hverifies, hother⟩ :=
    echoRequest_verifies 0x1234 0x0203 body hbody
  have hvalue : sum = 0xE5C7 := hsum.trans (by decide +kernel)
  have hwhole : echoRequest false 0x1234 0x0203 body = packet := by
    rw [hpacket, hvalue]
    decide
  rw [hwhole] at hagain hroom hverifies
  exact ⟨hbody, hwhole, hagain.symm.trans hvalue, hroom, hverifies, hother⟩

end LinkMeter.Icmp
