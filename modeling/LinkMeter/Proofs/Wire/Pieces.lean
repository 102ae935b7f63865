import LinkMeter.Wire.Stream

/-!
# Reading what arrives in pieces

A stream of bytes may be cut anywhere on its way.  `Bytes.Cut` says that some
pieces, none of them empty, are a cut of a string of bytes, and
`Source.ofPieces` is the source on which these pieces arrive before anything
else.  Reading exactly so many bytes does not depend on the cut: it returns the
head of the string, and what is left arrives as a cut of the rest
(`readExact_ofPieces`).
-/

namespace LinkMeter

/-- The pieces, none of them empty, make up the bytes. -/
structure Bytes.Cut (bytes : Bytes) (pieces : List Bytes) : Prop where
  ne_nil : ∀ piece ∈ pieces, piece ≠ []
  flatten_eq : pieces.flatten = bytes

/-- An empty string has no pieces. -/
theorem Bytes.Cut.eq_nil {pieces : List Bytes} (hcut : Bytes.Cut [] pieces) : pieces = [] := by
  cases pieces with
  | nil => rfl
  | cons piece pieces =>
      obtain ⟨hpiece, -⟩ := List.forall_mem_cons.1 hcut.ne_nil
      exact absurd (List.append_eq_nil_iff.1 hcut.flatten_eq).1 hpiece

namespace Wire.Source

/-- The pieces arrive one after the other, and then whatever comes later. -/
def ofPieces (pieces : List Bytes) (later : Source) : Source := pieces.map .chunk ++ later

@[simp] theorem ofPieces_cons (piece : Bytes) (pieces : List Bytes) (later : Source) :
    ofPieces (piece :: pieces) later = .chunk piece :: ofPieces pieces later := rfl

theorem readExact_zero (source : Source) : source.readExact 0 = (.done [], source) := by
  cases source with
  | nil => rfl
  | cons arrival rest => cases arrival <;> rfl

/-- Bytes that are put back arrive as a piece of their own, if there are any. -/
theorem cut_putBack (bytes : Bytes) {rest : Bytes} {pieces : List Bytes}
    (hcut : rest.Cut pieces) (later : Source) :
    ∃ left, (bytes ++ rest).Cut left ∧
      putBack bytes (ofPieces pieces later) = ofPieces left later := by
  by_cases hbytes : bytes = []
  · subst hbytes
    exact ⟨pieces, hcut, rfl⟩
  · refine ⟨bytes :: pieces, ⟨?_, by rw [List.flatten_cons, hcut.flatten_eq]⟩, ?_⟩
    · exact List.forall_mem_cons.2 ⟨hbytes, hcut.ne_nil⟩
    · simp [putBack, hbytes]

/-- Reading exactly as many bytes as the head of a string has returns the head, however the
string is cut. -/
theorem readExact_ofPieces {head rest : Bytes} {pieces : List Bytes}
    (hcut : (head ++ rest).Cut pieces) (later : Source) :
    ∃ left, rest.Cut left ∧
      (ofPieces pieces later).readExact head.length = (.done head, ofPieces left later) := by
  induction pieces generalizing head with
  | nil =>
      obtain ⟨rfl, rfl⟩ := List.append_eq_nil_iff.1 hcut.flatten_eq.symm
      exact ⟨[], hcut, readExact_zero _⟩
  | cons piece pieces ih =>
      obtain ⟨hpiece, hpieces⟩ := List.forall_mem_cons.1 hcut.ne_nil
      have hflatten : piece ++ pieces.flatten = head ++ rest := hcut.flatten_eq
      by_cases hhead : head = []
      · subst hhead
        exact ⟨piece :: pieces, hcut, readExact_zero _⟩
      have hlength : head.length ≠ 0 := by simpa using hhead
      rw [ofPieces_cons, readExact, if_neg hlength, if_neg (by simpa using hpiece)]
      by_cases hle : head.length ≤ piece.length
      · -- the head ends inside the first piece
        have hprefix : piece <+: head ++ rest := hflatten ▸ List.prefix_append _ _
        obtain ⟨more, rfl⟩ := List.prefix_of_prefix_length_le (List.prefix_append _ _) hprefix hle
        rw [List.append_assoc] at hflatten
        have hrest := List.append_cancel_left hflatten
        obtain ⟨left, hleft, hback⟩ := cut_putBack more ⟨hpieces, rfl⟩ later
        refine ⟨left, hrest ▸ hleft, ?_⟩
        rw [if_pos hle, List.take_left, List.drop_left, hback]
      · -- the first piece is read whole
        have hprefix : piece <+: head ++ rest := hflatten ▸ List.prefix_append _ _
        obtain ⟨more, rfl⟩ :=
          List.prefix_of_prefix_length_le hprefix (List.prefix_append _ _) (by omega)
        rw [List.append_assoc] at hflatten
        obtain ⟨left, hleft, hread⟩ := ih ⟨hpieces, List.append_cancel_left hflatten⟩
        refine ⟨left, hleft, ?_⟩
        rw [if_neg hle, List.length_append, Nat.add_sub_cancel_left, hread]

end Wire.Source

end LinkMeter
