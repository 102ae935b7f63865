import LinkMeter.Proofs.Transfer.Pumps
import LinkMeter.Proofs.Wire.Pieces

/-!
# Receiving a whole string

A read from a string that is cut in pieces gives some head of the string, and no
bytes only at its end (`Wire.Source.read_ofPieces`).  So a pump that nobody
tells to stop delivers the whole string, wherever it was cut and whatever the
size of the buffer is (`Transfer.receive_ofPieces`).
-/

namespace LinkMeter

open Wire

namespace Wire.Source

theorem content_ofPieces (pieces : List Bytes) (later : Source) :
    (ofPieces pieces later).content = pieces.flatten ++ later.content := by
  induction pieces with
  | nil => rfl
  | cons piece pieces ih =>
      rw [ofPieces_cons, content, ih, List.flatten_cons, List.append_assoc]

/-- A read gives a head of the string, which is empty only if nothing is left. -/
theorem read_ofPieces {capacity : ℕ} (hcapacity : 1 ≤ capacity) {data : Bytes}
    {pieces : List Bytes} (hcut : data.Cut pieces) :
    ∃ head rest left, data = head ++ rest ∧ rest.Cut left ∧ (head = [] → rest = []) ∧
      (ofPieces pieces []).read capacity = (.done head, ofPieces left []) := by
  cases pieces with
  | nil => exact ⟨[], data, [], rfl, hcut, fun _ => hcut.flatten_eq.symm, rfl⟩
  | cons piece pieces =>
      obtain ⟨hpiece, hpieces⟩ := List.forall_mem_cons.1 hcut.ne_nil
      obtain ⟨left, hleft, hback⟩ := cut_putBack (piece.drop capacity) ⟨hpieces, rfl⟩ []
      refine ⟨piece.take capacity, _, left, ?_, hleft, fun hnone => ?_, ?_⟩
      · rw [← List.append_assoc, List.take_append_drop, ← List.flatten_cons, hcut.flatten_eq]
      · rcases List.take_eq_nil_iff.1 hnone with hzero | hempty
        · omega
        · exact absurd hempty hpiece
      · rw [ofPieces_cons, read, hback]

end Wire.Source

namespace Transfer

variable {chance : Chance} {buffer : ℕ} {data : Bytes} {pieces : List Bytes}

/-- A pump that nobody tells to stop gets to the end of a string. -/
theorem receiveFrom_ofPieces (hnever : ∀ round, chance.toldBefore round = false)
    (hbuffer : 1 ≤ buffer) (round : ℕ) (source : Source) (tally : Tally) (received : Received)
    (hsource : ∃ data pieces, Bytes.Cut data pieces ∧ source = Source.ofPieces pieces []) :
    (receiveFrom chance buffer round source tally false received).fault = none ∧
      (receiveFrom chance buffer round source tally false received).rest = [] := by
  generalize hstopped : false = stopped
  revert hsource hstopped
  fun_induction receiveFrom chance buffer round source tally stopped received with
  | case1 round source tally stopped received told hstops =>
      intro _ hstopped
      have htold : told = false := by simp [told, ← hstopped, hnever]
      rw [htold] at hstops
      exact absurd hstops (by simp)
  | case2 round source tally stopped received told hgoes fault rest hread =>
      rintro ⟨data, pieces, hcut, rfl⟩ -
      obtain ⟨head, tail, left, -, -, -, hgives⟩ := Source.read_ofPieces hbuffer hcut
      rw [hread] at hgives
      cases hgives
  | case3 round source tally stopped received told hgoes rest hread =>
      rintro ⟨data, pieces, hcut, rfl⟩ -
      obtain ⟨head, tail, left, -, -, -, hgives⟩ := Source.read_ofPieces hbuffer hcut
      rw [hread] at hgives
      cases hgives
  | case4 round source tally stopped received told hgoes rest hread =>
      rintro ⟨data, pieces, hcut, rfl⟩ -
      obtain ⟨head, tail, left, -, hleft, hend, hgives⟩ := Source.read_ofPieces hbuffer hcut
      rw [hread] at hgives
      cases hgives
      -- a read without bytes is the end of the string
      rw [hend rfl] at hleft
      rw [hleft.eq_nil]
      exact ⟨rfl, rfl⟩
  | case5 round source tally stopped received told hgoes bytes rest hread hbytes hsize size samples
      next hadd ih =>
      rintro ⟨data, pieces, hcut, rfl⟩ hstopped
      obtain ⟨head, tail, left, -, hleft, -, hgives⟩ := Source.read_ofPieces hbuffer hcut
      rw [hread] at hgives
      cases hgives
      have htold : false = told := by simp [told, ← hstopped, hnever]
      exact ih ⟨_, _, hleft, rfl⟩ htold

/-- A pump that nobody tells to stop delivers and counts a string as a whole. -/
theorem receive_ofPieces (hnever : ∀ round, chance.toldBefore round = false)
    (hbuffer : 1 ≤ buffer) (hcut : data.Cut pieces) (hfits : data.length < UInt64.size) :
    (receive chance buffer (Source.ofPieces pieces [])).fault = none ∧
      (receive chance buffer (Source.ofPieces pieces [])).rest = [] ∧
      (receive chance buffer (Source.ofPieces pieces [])).total.toNat = data.length ∧
      Quantity.bytes.total (receive chance buffer (Source.ofPieces pieces [])).samples =
        data.length := by
  obtain ⟨hfault, hrest⟩ :=
    receiveFrom_ofPieces hnever hbuffer 0 _ { counting := .bytes } {} ⟨data, pieces, hcut, rfl⟩
  obtain ⟨delivered, hdelivered, haccounts⟩ :=
    receives_receiveFrom chance buffer 0 (Source.ofPieces pieces []) { counting := .bytes } false {}
  rw [hrest, Source.content_ofPieces, hcut.flatten_eq] at hdelivered
  have hall : data = delivered := by simpa [Source.content] using hdelivered
  subst hall
  obtain ⟨htotal, hsamples⟩ := haccounts balanced_start (by simpa using hfits)
  replace htotal := htotal.trans (Nat.zero_add _)
  exact ⟨hfault, hrest, htotal, hsamples.trans htotal⟩

end Transfer

end LinkMeter
