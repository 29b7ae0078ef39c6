import Mathlib.Algebra.Ring.Nat
import Mathlib.Data.List.Basic

/-!
# UTF-8

Bytes are natural numbers below 256. The decoder is the one of the Encoding Standard with fatal
errors and streaming: it keeps the bytes of an unfinished character between two chunks and drops
a byte order mark at the start.
-/

namespace ChatBI.Lib

namespace Utf8

def encodeChar (c : Char) : List Nat :=
  if c.toNat < 0x80 then [c.toNat]
  else if c.toNat < 0x800 then [0xC0 + c.toNat / 64, 0x80 + c.toNat % 64]
  else if c.toNat < 0x10000 then
    [0xE0 + c.toNat / 4096, 0x80 + c.toNat / 64 % 64, 0x80 + c.toNat % 64]
  else
    [0xF0 + c.toNat / 262144, 0x80 + c.toNat / 4096 % 64, 0x80 + c.toNat / 64 % 64,
      0x80 + c.toNat % 64]

def encode (text : List Char) : List Nat := text.flatMap encodeChar

/-- The number of bytes of a text. -/
def size (text : List Char) : Nat := (text.map Char.utf8Size).sum

/-- The state of the decoder between two bytes. -/
structure Decoder where
  codePoint : Nat := 0
  bytesSeen : Nat := 0
  bytesNeeded : Nat := 0
  lowerBoundary : Nat := 0x80
  upperBoundary : Nat := 0xBF
  deriving DecidableEq

/-- One byte: the next state and a character when the byte completes one. -/
def Decoder.step (d : Decoder) (byte : Nat) : Option (Decoder × Option Char) :=
  if d.bytesNeeded = 0 then
    if byte ≤ 0x7F then some (d, some (Char.ofNat byte))
    else if 0xC2 ≤ byte ∧ byte ≤ 0xDF then
      some ({ d with bytesNeeded := 1, codePoint := byte % 32 }, none)
    else if 0xE0 ≤ byte ∧ byte ≤ 0xEF then
      some ({ d with
        lowerBoundary := if byte = 0xE0 then 0xA0 else d.lowerBoundary
        upperBoundary := if byte = 0xED then 0x9F else d.upperBoundary
        bytesNeeded := 2
        codePoint := byte % 16 }, none)
    else if 0xF0 ≤ byte ∧ byte ≤ 0xF4 then
      some ({ d with
        lowerBoundary := if byte = 0xF0 then 0x90 else d.lowerBoundary
        upperBoundary := if byte = 0xF4 then 0x8F else d.upperBoundary
        bytesNeeded := 3
        codePoint := byte % 8 }, none)
    else none
  else if byte < d.lowerBoundary ∨ d.upperBoundary < byte then none
  else if d.bytesSeen + 1 = d.bytesNeeded then
    some ({}, some (Char.ofNat (d.codePoint * 64 + byte % 64)))
  else
    some ({ d with
      lowerBoundary := 0x80
      upperBoundary := 0xBF
      codePoint := d.codePoint * 64 + byte % 64
      bytesSeen := d.bytesSeen + 1 }, none)

def Decoder.run : Decoder → List Nat → Option (Decoder × List Char)
  | d, [] => some (d, [])
  | d, byte :: bytes =>
    match d.step byte with
    | none => none
    | some (d', c) => (run d' bytes).map fun r => (r.1, c.toList ++ r.2)

end Utf8

/-- `TextDecoder('utf-8', { fatal: true })`. -/
structure TextDecoder where
  utf8 : Utf8.Decoder := {}
  bomSeen : Bool := false
  deriving DecidableEq

namespace TextDecoder

/-- `decode(chunk, { stream: true })`, `none` when it throws. -/
def decode (d : TextDecoder) (chunk : List Nat) : Option (TextDecoder × List Char) :=
  (d.utf8.run chunk).map fun r =>
    match d.bomSeen, r.2 with
    | false, c :: text => (⟨r.1, true⟩, if c = '\uFEFF' then text else c :: text)
    | _, text => (⟨r.1, d.bomSeen⟩, text)

/-- The texts of chunks that arrive one after another. -/
def decodeAll : TextDecoder → List (List Nat) → Option (TextDecoder × List (List Char))
  | d, [] => some (d, [])
  | d, chunk :: chunks =>
    match d.decode chunk with
    | none => none
    | some (d', text) => (decodeAll d' chunks).map fun r => (r.1, text :: r.2)

/-- `decode()` at the end of the stream does not throw. -/
def Finished (d : TextDecoder) : Prop := d.utf8.bytesNeeded = 0

end TextDecoder

namespace Utf8

variable {d d' : Decoder} {bytes more : List Nat} {text rest : List Char}

lemma length_encodeChar (c : Char) : (encodeChar c).length = c.utf8Size := by
  have hsize : c.utf8Size = if c.toNat ≤ 0x7F then 1 else if c.toNat ≤ 0x7FF then 2
      else if c.toNat ≤ 0xFFFF then 3 else 4 := rfl
  unfold encodeChar
  rw [hsize]
  repeat' split
  all_goals first
    | rfl
    | omega

lemma length_encode (text : List Char) : (encode text).length = size text := by
  induction text with
  | nil => rfl
  | cons c text ih =>
    rw [encode, List.flatMap_cons, List.length_append, length_encodeChar, size, List.map_cons,
      List.sum_cons]
    exact congrArg (c.utf8Size + ·) ih

@[simp] lemma encode_append : encode (text ++ rest) = encode text ++ encode rest :=
  List.flatMap_append

@[simp] lemma size_append : size (text ++ rest) = size text + size rest := by
  simp [size]

@[simp] lemma size_nil : size [] = 0 := rfl

@[simp] lemma size_cons (c : Char) : size (c :: text) = c.utf8Size + size text := rfl

lemma run_append : d.run (bytes ++ more) =
    (d.run bytes).bind fun r => (r.1.run more).map fun s => (s.1, r.2 ++ s.2) := by
  induction bytes generalizing d with
  | nil =>
    simp only [List.nil_append, Decoder.run, Option.bind_some]
    cases d.run more <;> rfl
  | cons byte bytes ih =>
    rw [List.cons_append, Decoder.run, Decoder.run]
    cases d.step byte with
    | none => rfl
    | some s =>
      obtain ⟨d', c⟩ := s
      simp only [ih]
      cases d'.run bytes with
      | none => rfl
      | some r =>
        simp only [Option.bind_some, Option.map_some]
        cases r.1.run more with
        | none => rfl
        | some s => simp

/-- A continuation byte inside the boundaries. -/
lemma step_continuation {byte : Nat} (hneeded : d.bytesNeeded ≠ 0)
    (hlower : d.lowerBoundary ≤ byte) (hupper : byte ≤ d.upperBoundary) :
    d.step byte =
      if d.bytesSeen + 1 = d.bytesNeeded then
        some ({}, some (Char.ofNat (d.codePoint * 64 + byte % 64)))
      else
        some ({ d with
          lowerBoundary := 0x80
          upperBoundary := 0xBF
          codePoint := d.codePoint * 64 + byte % 64
          bytesSeen := d.bytesSeen + 1 }, none) := by
  have hinside : ¬(byte < d.lowerBoundary ∨ d.upperBoundary < byte) := by omega
  rw [Decoder.step, if_neg hneeded, if_neg hinside]

/-- The bytes of a character give it back. -/
lemma run_encodeChar (c : Char) : Decoder.run {} (encodeChar c) = some ({}, [c]) := by
  have hscalar : c.toNat < 0xD800 ∨ 0xDFFF < c.toNat ∧ c.toNat < 0x110000 := c.valid
  have hchar : ∀ n, n = c.toNat → Char.ofNat n = c := by
    rintro n rfl
    exact Char.ofNat_toNat c
  unfold encodeChar
  by_cases h₁ : c.toNat < 0x80
  · rw [if_pos h₁, Decoder.run, Decoder.step, if_pos rfl, if_pos (by omega)]
    simp only [Decoder.run, hchar c.toNat rfl]
    rfl
  rw [if_neg h₁]
  by_cases h₂ : c.toNat < 0x800
  · rw [if_pos h₂, Decoder.run, Decoder.step, if_pos rfl, if_neg (by omega), if_pos (by omega)]
    simp only [Decoder.run]
    rw [step_continuation (by simp) (by simp) (by simp only []; omega), if_pos rfl,
      hchar _ (by simp only []; omega)]
    rfl
  rw [if_neg h₂]
  by_cases h₃ : c.toNat < 0x10000
  · rw [if_pos h₃, Decoder.run, Decoder.step, if_pos rfl, if_neg (by omega), if_neg (by omega),
      if_pos (by omega)]
    simp only [Decoder.run]
    rw [step_continuation (by simp) (by simp only []; split <;> omega)
      (by simp only []; split <;> omega), if_neg (by simp)]
    simp only []
    rw [step_continuation (by simp) (by simp) (by simp only []; omega), if_pos rfl,
      hchar _ (by simp only []; omega)]
    rfl
  · rw [if_neg h₃, Decoder.run, Decoder.step, if_pos rfl, if_neg (by omega), if_neg (by omega),
      if_neg (by omega), if_pos (by omega)]
    simp only [Decoder.run]
    rw [step_continuation (by simp) (by simp only []; split <;> omega)
      (by simp only []; split <;> omega), if_neg (by simp)]
    simp only []
    rw [step_continuation (by simp) (by simp) (by simp only []; omega), if_neg (by simp)]
    simp only []
    rw [step_continuation (by simp) (by simp) (by simp only []; omega), if_pos rfl,
      hchar _ (by simp only []; omega)]
    rfl

theorem run_encode (text : List Char) : Decoder.run {} (encode text) = some ({}, text) := by
  induction text with
  | nil => rfl
  | cons c text ih =>
    have hcons : encode (c :: text) = encodeChar c ++ encode text := rfl
    rw [hcons, run_append, run_encodeChar, Option.bind_some, ih]
    rfl

end Utf8

namespace TextDecoder

variable {d : TextDecoder} {chunk : List Nat} {chunks : List (List Nat)} {text : List Char}

/-- A chunk gives the text of its bytes when no byte order mark can come. -/
lemma decode_eq {u : Utf8.Decoder} (h : d.utf8.run chunk = some (u, text))
    (hbom : d.bomSeen = true ∨ text.head? ≠ some '\uFEFF') :
    ∃ seen, d.decode chunk = some (⟨u, seen⟩, text) ∧
      (seen = true ∨ text = [] ∧ d.bomSeen = false) := by
  obtain ⟨utf8, bomSeen⟩ := d
  simp only [decode, h, Option.map_some]
  cases bomSeen with
  | true =>
    refine ⟨true, ?_, .inl rfl⟩
    cases text <;> rfl
  | false =>
    cases text with
    | nil => exact ⟨false, rfl, .inr ⟨rfl, rfl⟩⟩
    | cons c text =>
      have hc : c ≠ '\uFEFF' := by
        rcases hbom with h | h
        · cases h
        · simpa using h
      exact ⟨true, by simp only [if_neg hc], .inl rfl⟩

lemma decodeAll_run {u : Utf8.Decoder} (h : d.utf8.run chunks.flatten = some (u, text))
    (hbom : d.bomSeen = true ∨ text.head? ≠ some '\uFEFF') :
    ∃ d' texts, d.decodeAll chunks = some (d', texts) ∧ texts.flatten = text ∧ d'.utf8 = u := by
  induction chunks generalizing d text with
  | nil =>
    cases h
    exact ⟨d, [], rfl, rfl, rfl⟩
  | cons chunk chunks ih =>
    rw [List.flatten_cons, Utf8.run_append] at h
    obtain ⟨⟨u', first⟩, hfirst, hmore⟩ := Option.bind_eq_some_iff.mp h
    obtain ⟨⟨u'', rest⟩, hrest, he⟩ := Option.map_eq_some_iff.mp hmore
    cases he
    have hhead : d.bomSeen = true ∨ first.head? ≠ some '\uFEFF' := by
      rcases hbom with h | h
      · exact .inl h
      · cases first with
        | nil => exact .inr (by simp)
        | cons c first => exact .inr h
    obtain ⟨seen, hdecode, hseen⟩ := decode_eq hfirst hhead
    have hnext : seen = true ∨ rest.head? ≠ some '\uFEFF' := by
      rcases hseen with h | ⟨rfl, hnot⟩
      · exact .inl h
      · rcases hbom with h | h
        · rw [hnot] at h
          cases h
        · exact .inr h
    obtain ⟨d', texts, hall, htexts, hu⟩ := ih (d := ⟨u', seen⟩) hrest hnext
    refine ⟨d', first :: texts, ?_, ?_, hu⟩
    · simp only [decodeAll, hdecode, hall, Option.map_some]
    · simp only [List.flatten_cons, htexts]

/-- The bytes of a text without a byte order mark decode to the text, however they are cut. -/
theorem decodeAll_encode (hbom : text.head? ≠ some '\uFEFF')
    (h : chunks.flatten = Utf8.encode text) :
    ∃ d texts, decodeAll {} chunks = some (d, texts) ∧ texts.flatten = text ∧ d.Finished := by
  have hrun : Utf8.Decoder.run {} chunks.flatten = some ({}, text) := by
    rw [h, Utf8.run_encode]
  obtain ⟨d, texts, hall, htexts, hd⟩ := decodeAll_run (d := {}) hrun (.inr hbom)
  refine ⟨d, texts, hall, htexts, ?_⟩
  rw [Finished, hd]

end TextDecoder

end ChatBI.Lib
