/-!
# UTF-8

Strict decoding of bytes. A character is a lead byte and up to three continuation bytes, of which
the first has a range of its own that excludes overlong forms, surrogates and values above
U+10FFFF. A fault names the longest run of bytes that starts a character.

## Main definitions

* `Utf8.encode` — the bytes of a text.
* `Utf8.Lead` — what a lead byte says about its character.
* `Utf8.DecodeFault` — where and why bytes are no text, with its wording.
* `Utf8.decode` — the text of bytes.

## Main statements

* `Utf8.decode_encode` — every text is decoded from its bytes.
-/

namespace Abacus.Utf8

/-- The continuation byte that carries the last six bits of a number. -/
def tailByte (n : Nat) : UInt8 := .ofNat (0x80 + n % 0x40)

/-- The bytes of a character. -/
def encodeChar (c : Char) : List UInt8 :=
  let n := c.toNat
  if n < 0x80 then [.ofNat n]
  else if n < 0x800 then [.ofNat (0xC0 + n / 0x40), tailByte n]
  else if n < 0x10000 then [.ofNat (0xE0 + n / 0x1000), tailByte (n / 0x40), tailByte n]
  else [.ofNat (0xF0 + n / 0x40000), tailByte (n / 0x1000), tailByte (n / 0x40), tailByte n]

/-- The bytes of a text. Every text can be encoded, as characters are no surrogates. -/
def encode (s : String) : List UInt8 := s.toList.flatMap encodeChar

/-- What a lead byte says: the bits it gives, how many continuation bytes follow, and the range of
the first of them. -/
structure Lead where
  bits : Nat
  count : Nat
  low : Nat
  high : Nat
  deriving Repr

/-- The meaning of a lead byte; continuation bytes and a few others lead no character. -/
def Lead.of? (byte : UInt8) : Option Lead :=
  let n := byte.toNat
  if n < 0x80 then some ⟨n, 0, 0x80, 0xBF⟩
  else if n < 0xC2 then none
  else if n < 0xE0 then some ⟨n - 0xC0, 1, 0x80, 0xBF⟩
  else if n = 0xE0 then some ⟨0, 2, 0xA0, 0xBF⟩
  else if n = 0xED then some ⟨0xD, 2, 0x80, 0x9F⟩
  else if n < 0xF0 then some ⟨n - 0xE0, 2, 0x80, 0xBF⟩
  else if n = 0xF0 then some ⟨0, 3, 0x90, 0xBF⟩
  else if n < 0xF4 then some ⟨n - 0xF0, 3, 0x80, 0xBF⟩
  else if n = 0xF4 then some ⟨4, 3, 0x80, 0x8F⟩
  else none

/-- The continuation bytes at the front of `bytes`, the first of them in a range of its own. -/
def continuation (low high : Nat) : List UInt8 → List UInt8
  | [] => []
  | b :: rest =>
    if low ≤ b.toNat ∧ b.toNat ≤ high then b :: continuation 0x80 0xBF rest else []

/-- The value of lead bits followed by continuation bytes. -/
def joinBits (bits : Nat) (tail : List UInt8) : Nat :=
  tail.foldl (fun n b => 0x40 * n + b.toNat % 0x40) bits

/-- Why bytes are no text. -/
inductive FaultReason where
  /-- A byte that leads no character. -/
  | invalidStart
  /-- A byte that does not continue the character before it. -/
  | invalidContinuation
  /-- A character that the end cuts off. -/
  | unexpectedEnd
  deriving DecidableEq, Repr

/-- The wording of a reason. -/
def FaultReason.message : FaultReason → String
  | invalidStart => "invalid start byte"
  | invalidContinuation => "invalid continuation byte"
  | unexpectedEnd => "unexpected end of data"

/-- The first place where bytes are no text. Bytes before it are characters, and those behind it are
not looked at. -/
structure DecodeFault where
  /-- The position of the lead byte. -/
  position : Nat
  /-- The lead byte. -/
  byte : UInt8
  /-- The number of bytes that start a character. -/
  length : Nat
  reason : FaultReason
  deriving DecidableEq, Repr

/-- The two hexadecimal digits of a byte. -/
def hexByte (byte : UInt8) : String :=
  String.ofList [Nat.digitChar (byte.toNat / 16), Nat.digitChar (byte.toNat % 16)]

/-- The wording of a fault. -/
def DecodeFault.message (fault : DecodeFault) : String :=
  let place :=
    if fault.length = 1 then
      "byte 0x" ++ hexByte fault.byte ++ " in position " ++ toString fault.position
    else
      "bytes in position " ++ toString fault.position ++ "-" ++
        toString (fault.position + fault.length - 1)
  "'utf-8' codec can't decode " ++ place ++ ": " ++ fault.reason.message

/-- The characters of bytes that start at a position. -/
def decodeFrom (position : Nat) (bytes : List UInt8) : Except DecodeFault (List Char) :=
  match bytes with
  | [] => .ok []
  | byte :: rest =>
    match Lead.of? byte with
    | none => .error ⟨position, byte, 1, .invalidStart⟩
    | some lead =>
      -- The window may be cut short by the end, and its front by a byte that does not continue.
      let window := rest.take lead.count
      let tail := continuation lead.low lead.high window
      if tail.length < lead.count then
        let reason :=
          if tail.length = window.length then FaultReason.unexpectedEnd
          else FaultReason.invalidContinuation
        .error ⟨position, byte, tail.length + 1, reason⟩
      else
        match decodeFrom (position + lead.count + 1) (rest.drop lead.count) with
        | .ok cs => .ok (Char.ofNat (joinBits lead.bits tail) :: cs)
        | .error fault => .error fault
termination_by bytes.length
decreasing_by simp only [List.length_drop, List.length_cons]; omega

/-- The text of bytes. Surrogates, forms that are longer than needed and numbers beyond the last
character are no text; a byte order mark is a character like any other. -/
def decode (bytes : List UInt8) : Except DecodeFault String :=
  (decodeFrom 0 bytes).map String.ofList

/-! ## Decoding what was encoded -/

/-- Bytes spell a number: a lead byte is followed by the continuation bytes that it asks for, and
their bits join to the number. -/
def Spells (bytes : List UInt8) (n : Nat) : Prop :=
  ∃ byte lead tail, bytes = byte :: tail ∧ Lead.of? byte = some lead ∧ tail.length = lead.count ∧
    continuation lead.low lead.high tail = tail ∧ joinBits lead.bits tail = n

theorem toNat_ofNat_of_lt {n : Nat} (h : n < 256) : (UInt8.ofNat n).toNat = n := by
  simp [Nat.mod_eq_of_lt h]

theorem toNat_tailByte (n : Nat) : (tailByte n).toNat = 0x80 + n % 0x40 :=
  toNat_ofNat_of_lt (by omega)

theorem joinBits_cons_tailByte (bits n : Nat) (tail : List UInt8) :
    joinBits bits (tailByte n :: tail) = joinBits (0x40 * bits + n % 0x40) tail := by
  simp only [joinBits, List.foldl_cons, toNat_tailByte]
  congr 1
  omega

theorem continuation_cons_tailByte {low high n : Nat} (tail : List UInt8)
    (hlow : low ≤ 0x80 + n % 0x40) (hhigh : 0x80 + n % 0x40 ≤ high) :
    continuation low high (tailByte n :: tail) = tailByte n :: continuation 0x80 0xBF tail := by
  simp [continuation, toNat_tailByte, hlow, hhigh]

theorem spells_one {n : Nat} (h : n < 0x80) : Spells [.ofNat n] n :=
  ⟨.ofNat n, ⟨n, 0, 0x80, 0xBF⟩, [], rfl,
    by simp [Lead.of?, toNat_ofNat_of_lt (show n < 256 by omega), h], rfl, rfl, rfl⟩

theorem spells_two {n : Nat} (h : 0x80 ≤ n) (h' : n < 0x800) :
    Spells [.ofNat (0xC0 + n / 0x40), tailByte n] n := by
  have hlead : Lead.of? (.ofNat (0xC0 + n / 0x40)) = some ⟨n / 0x40, 1, 0x80, 0xBF⟩ := by
    rw [Lead.of?, toNat_ofNat_of_lt (by omega)]
    grind
  refine ⟨_, _, _, rfl, hlead, rfl, ?_, ?_⟩ <;> dsimp only
  · rw [continuation_cons_tailByte _ (by omega) (by omega), continuation]
  · rw [joinBits_cons_tailByte, joinBits, List.foldl_nil]
    omega

theorem spells_three {n : Nat} (h : 0x800 ≤ n) (h' : n < 0x10000)
    (hsurrogate : n < 0xD800 ∨ 0xDFFF < n) :
    Spells [.ofNat (0xE0 + n / 0x1000), tailByte (n / 0x40), tailByte n] n := by
  have hlead : Lead.of? (.ofNat (0xE0 + n / 0x1000)) =
      some ⟨n / 0x1000, 2, if n / 0x1000 = 0 then 0xA0 else 0x80,
        if n / 0x1000 = 0xD then 0x9F else 0xBF⟩ := by
    rw [Lead.of?, toNat_ofNat_of_lt (by omega)]
    grind
  refine ⟨_, _, _, rfl, hlead, rfl, ?_, ?_⟩ <;> dsimp only
  · rw [continuation_cons_tailByte _ (by split <;> omega) (by split <;> omega),
      continuation_cons_tailByte _ (by omega) (by omega), continuation]
  · rw [joinBits_cons_tailByte, joinBits_cons_tailByte, joinBits, List.foldl_nil]
    omega

theorem spells_four {n : Nat} (h : 0x10000 ≤ n) (h' : n < 0x110000) :
    Spells [.ofNat (0xF0 + n / 0x40000), tailByte (n / 0x1000), tailByte (n / 0x40), tailByte n]
      n := by
  have hlead : Lead.of? (.ofNat (0xF0 + n / 0x40000)) =
      some ⟨n / 0x40000, 3, if n / 0x40000 = 0 then 0x90 else 0x80,
        if n / 0x40000 = 4 then 0x8F else 0xBF⟩ := by
    rw [Lead.of?, toNat_ofNat_of_lt (by omega)]
    grind
  refine ⟨_, _, _, rfl, hlead, rfl, ?_, ?_⟩ <;> dsimp only
  · rw [continuation_cons_tailByte _ (by split <;> omega) (by split <;> omega),
      continuation_cons_tailByte _ (by omega) (by omega),
      continuation_cons_tailByte _ (by omega) (by omega), continuation]
  · rw [joinBits_cons_tailByte, joinBits_cons_tailByte, joinBits_cons_tailByte, joinBits,
      List.foldl_nil]
    omega

theorem spells_encodeChar (c : Char) : Spells (encodeChar c) c.toNat := by
  have hvalid : c.toNat < 0xD800 ∨ 0xDFFF < c.toNat ∧ c.toNat < 0x110000 := c.valid
  unfold encodeChar
  dsimp only
  split
  · exact spells_one (by omega)
  split
  · exact spells_two (by omega) (by omega)
  split
  · exact spells_three (by omega) (by omega) (by omega)
  · exact spells_four (by omega) (by omega)

/-- Bytes that spell a number are decoded as one character. -/
theorem decodeFrom_append {position n : Nat} {bytes : List UInt8} (h : Spells bytes n)
    (rest : List UInt8) :
    decodeFrom position (bytes ++ rest) =
      (decodeFrom (position + bytes.length) rest).map (Char.ofNat n :: ·) := by
  obtain ⟨byte, lead, tail, rfl, hlead, hcount, htail, rfl⟩ := h
  rw [List.cons_append, decodeFrom, List.length_cons]
  simp only [hlead, ← hcount, List.take_left', List.drop_left', htail, Nat.lt_irrefl, if_false,
    Nat.add_assoc]
  cases decodeFrom (position + (tail.length + 1)) rest <;> rfl

theorem decodeFrom_flatMap_encodeChar (position : Nat) (cs : List Char) :
    decodeFrom position (cs.flatMap encodeChar) = .ok cs := by
  induction cs generalizing position with
  | nil => rw [List.flatMap_nil, decodeFrom]
  | cons c cs ih =>
    rw [List.flatMap_cons, decodeFrom_append (spells_encodeChar c), ih, Char.ofNat_toNat]
    rfl

/-- Every text is decoded from its bytes. -/
@[simp]
theorem decode_encode (s : String) : decode (encode s) = .ok s := by
  simp [decode, encode, decodeFrom_flatMap_encodeChar, Except.map]

end Abacus.Utf8
