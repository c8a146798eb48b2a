import Pobicos.Lib.Octets

/-!
# Frame

Tag-length-value framing of a byte stream with one-byte tags and lengths:

```
[tag, length, body_0, …, body_(length-1)]
```

A `Frame` carries the bound that makes its length byte exact, so every frame
can be written.  `decode` reads one frame from the front of a stream and is
inverse to `Frame.bytes` over any suffix (`decode_bytes_append`,
`eq_bytes_append_of_decode`); a stream of whole frames has one reading
(`exists_of_encode_append`).
-/

namespace Framing

open Octets

/-- One frame; the body fits the one-byte length. -/
@[ext] structure Frame where
  tag : Byte
  body : List Byte
  length_body_lt : body.length < 256
  deriving DecidableEq, Repr

namespace Frame

/-- A frame without a body. -/
def empty (tag : Byte) : Frame := ⟨tag, [], by decide⟩

/-- The length byte. -/
def lengthByte (f : Frame) : Byte := BitVec.ofNat 8 f.body.length

/-- The frame on the wire. -/
def bytes (f : Frame) : List Byte := f.tag :: f.lengthByte :: f.body

@[simp] theorem toNat_lengthByte (f : Frame) : f.lengthByte.toNat = f.body.length := by
  rw [lengthByte, BitVec.toNat_ofNat]
  exact Nat.mod_eq_of_lt f.length_body_lt

@[simp] theorem length_bytes (f : Frame) : f.bytes.length = f.body.length + 2 := rfl

theorem length_bytes_le (f : Frame) : f.bytes.length ≤ 257 := by
  have := f.length_body_lt
  rw [length_bytes]
  omega

/-- A header and as many bytes as it says make a frame. -/
theorem exists_of_header (tag : Byte) {len : Byte} {body : List Byte} (hb : body.length = len.toNat) :
    ∃ f : Frame, f.tag = tag ∧ f.lengthByte = len ∧ f.body = body := by
  refine ⟨⟨tag, body, ?_⟩, rfl, ?_, rfl⟩
  · have := len.isLt
    omega
  · rw [lengthByte, hb, BitVec.ofNat_toNat, BitVec.setWidth_eq]

theorem bytes_ne_nil (f : Frame) : f.bytes ≠ [] := List.cons_ne_nil _ _

end Frame

/-! ## Reading one frame -/

/-- Read one frame from the front of a stream, with what follows it; `none`
while the stream does not hold a whole frame. -/
def decode : List Byte → Option (Frame × List Byte)
  | tag :: len :: rest =>
      if h : len.toNat ≤ rest.length then
        some (⟨tag, rest.take len.toNat, by
          have := len.isLt
          rw [List.length_take]
          omega⟩, rest.drop len.toNat)
      else none
  | _ => none

theorem decode_bytes_append (f : Frame) (rest : List Byte) :
    decode (f.bytes ++ rest) = some (f, rest) := by
  have hlen : f.lengthByte.toNat ≤ (f.body ++ rest).length := by
    rw [f.toNat_lengthByte, List.length_append]
    omega
  have hcons : f.bytes ++ rest = f.tag :: f.lengthByte :: (f.body ++ rest) := rfl
  rw [hcons, decode, dif_pos hlen]
  obtain ⟨tag, body, hbody⟩ := f
  simp [Frame.toNat_lengthByte]

theorem eq_bytes_append_of_decode {bs rest : List Byte} {f : Frame}
    (h : decode bs = some (f, rest)) : bs = f.bytes ++ rest := by
  match bs with
  | [] => cases h
  | [_] => cases h
  | tag :: len :: tail =>
      rw [decode] at h
      split at h
      · next hle =>
        have hlen : (tail.take len.toNat).length = len.toNat := List.length_take_of_le hle
        cases h
        simp only [Frame.bytes, Frame.lengthByte, hlen, BitVec.ofNat_toNat, BitVec.setWidth_eq,
          List.cons_append, List.take_append_drop]
      · cases h

/-- A stream holds no whole frame exactly when it ends inside its first one. -/
theorem decode_eq_none_iff {bs : List Byte} :
    decode bs = none ↔ ∀ (f : Frame) (rest : List Byte), bs ≠ f.bytes ++ rest := by
  constructor
  · intro h f rest heq
    rw [heq, decode_bytes_append] at h
    cases h
  · intro h
    cases hd : decode bs with
    | none => rfl
    | some p =>
        obtain ⟨f, rest⟩ := p
        exact absurd (eq_bytes_append_of_decode hd) (h f rest)

/-- Two frames at the front of one stream are the same frame. -/
theorem bytes_append_inj {f g : Frame} {r t : List Byte} (h : f.bytes ++ r = g.bytes ++ t) :
    f = g ∧ r = t := by
  have hf := decode_bytes_append f r
  rw [h, decode_bytes_append] at hf
  cases hf
  exact ⟨rfl, rfl⟩

theorem Frame.bytes_inj {f g : Frame} (h : f.bytes = g.bytes) : f = g :=
  (bytes_append_inj (congrArg (· ++ []) h)).1

/-- Part of a frame is no frame. -/
theorem decode_take {f : Frame} {n : Nat} (h : n < f.bytes.length) : decode (f.bytes.take n) = none := by
  rw [decode_eq_none_iff]
  intro g rest heq
  have hwhole : f.bytes ++ [] = g.bytes ++ (rest ++ f.bytes.drop n) := by
    rw [List.append_nil, ← List.append_assoc, ← heq, List.take_append_drop]
  obtain ⟨-, hnil⟩ := bytes_append_inj hwhole
  have hdrop : f.bytes.drop n = [] := (List.append_eq_nil_iff.mp hnil.symm).2
  rw [List.drop_eq_nil_iff] at hdrop
  omega

/-! ## Streams of frames -/

/-- Frames one after the other. -/
def encode (fs : List Frame) : List Byte := fs.flatMap Frame.bytes

@[simp] theorem encode_nil : encode [] = [] := rfl

@[simp] theorem encode_cons (f : Frame) (fs : List Frame) :
    encode (f :: fs) = f.bytes ++ encode fs := rfl

@[simp] theorem encode_append (fs gs : List Frame) : encode (fs ++ gs) = encode fs ++ encode gs :=
  List.flatMap_append

theorem encode_singleton (f : Frame) : encode [f] = f.bytes := List.append_nil _

/-- Whole frames at the front of a stream whose last frame may be cut are its
first ones. -/
theorem exists_of_encode_append_cut {fs gs : List Frame} {bs cut : List Byte}
    (h : encode fs ++ bs = encode gs ++ cut) (hcut : decode cut = none) :
    ∃ hs, gs = fs ++ hs ∧ bs = encode hs ++ cut := by
  induction fs generalizing gs with
  | nil => exact ⟨gs, rfl, h⟩
  | cons f fs ih =>
      rw [encode_cons, List.append_assoc] at h
      cases gs with
      | nil => exact absurd h.symm (decode_eq_none_iff.mp hcut f (encode fs ++ bs))
      | cons g gs =>
          rw [encode_cons, List.append_assoc] at h
          obtain ⟨rfl, hrest⟩ := bytes_append_inj h
          obtain ⟨hs, rfl, hbs⟩ := ih hrest
          exact ⟨hs, rfl, hbs⟩

/-- **Unique reading**: whole frames at the front of a stream of whole frames
are its first ones, and what follows them is the rest. -/
theorem exists_of_encode_append {fs gs : List Frame} {bs : List Byte}
    (h : encode fs ++ bs = encode gs) : ∃ hs, gs = fs ++ hs ∧ bs = encode hs := by
  obtain ⟨hs, hgs, hbs⟩ := exists_of_encode_append_cut (h.trans (List.append_nil _).symm) rfl
  exact ⟨hs, hgs, hbs.trans (List.append_nil _)⟩

/-- The byte stream is a concatenation of whole frames. -/
def IsStream (bs : List Byte) : Prop := ∃ fs, bs = encode fs

theorem IsStream.nil : IsStream [] := ⟨[], rfl⟩

/-- Part of a frame cuts a stream. -/
theorem IsStream.not_append_cut {bs cut : List Byte} (h : IsStream bs) (hne : cut ≠ [])
    (hcut : decode cut = none) : ¬ IsStream (bs ++ cut) := by
  rintro ⟨gs, hgs⟩
  obtain ⟨fs, rfl⟩ := h
  obtain ⟨hs, -, hrest⟩ := exists_of_encode_append hgs
  cases hs with
  | nil => exact hne hrest
  | cons g hs => exact decode_eq_none_iff.mp hcut g (encode hs) hrest

theorem IsStream.append_frame {bs : List Byte} (h : IsStream bs) (f : Frame) :
    IsStream (bs ++ f.bytes) := by
  obtain ⟨fs, rfl⟩ := h
  exact ⟨fs ++ [f], by rw [encode_append, encode_singleton]⟩

end Framing
