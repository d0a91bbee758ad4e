import Mathlib.Data.List.Basic
import Mathlib.Data.List.TakeWhile

/-! UTF-8 as Node writes it and reads it, also when the bytes of a text come in chunks. A chunk may end within a
    character; its first bytes are then kept until the chunk with the others. -/

namespace Utf8

def bytes (chars : List Char) : List UInt8 := chars.flatMap String.utf8EncodeChar

def encode (text : String) : List UInt8 := bytes text.toList

/-- The text of bytes; what `malformed` gives stands for bytes that are none. -/
def decode (malformed : List UInt8 → String) (bytes : List UInt8) : String :=
  (String.fromUTF8? bytes.toByteArray).getD (malformed bytes)

def isContinuation (byte : UInt8) : Bool := byte &&& 0xC0 == 0x80

/-- The number of bytes of the character that a byte begins; bytes that begin no longer one have 0. -/
def expected (byte : UInt8) : Nat :=
  if byte &&& 0xE0 == 0xC0 then 2
  else if byte &&& 0xF0 == 0xE0 then 3
  else if byte &&& 0xF8 == 0xF0 then 4
  else 0

/-! ### Chunks -/

/-- What `StringDecoder` keeps between two chunks: the first bytes of a character, and how many it lacks. -/
structure Decoder where
  buffered : List UInt8
  missing : Nat
  deriving DecidableEq, Repr

/-- The last bytes of a chunk that begin a character without ending it, and how many bytes it lacks. The chunk is
    read from its end; `held` are the bytes that were read. -/
def holdBack (held : List UInt8) : List UInt8 → Decoder
  | [] => ⟨[], 0⟩
  | byte :: before =>
    if isContinuation byte then
      if held.length + 1 < 4 then holdBack (byte :: held) before else ⟨[], 0⟩
    else if expected byte ≤ held.length + 1 then ⟨[], 0⟩
    else ⟨byte :: held, expected byte - (held.length + 1)⟩

def Decoder.found (d : Decoder) (chunk : List UInt8) : List UInt8 := (chunk.take d.missing).takeWhile isContinuation

def Decoder.write (malformed : List UInt8 → String) (d : Decoder) (chunk : List UInt8) : String × Decoder :=
  -- the bytes that continue the character of the last chunk
  let found := d.found chunk
  if found.length < d.missing ∧ found.length = chunk.length then
    ("", { buffered := d.buffered ++ found, missing := d.missing - found.length })
  else
    -- The character is complete, or the chunk goes on with a byte that is not part of it.
    let rest := chunk.drop found.length
    let held := holdBack [] rest.reverse
    (decode malformed (d.buffered ++ found) ++ decode malformed (rest.take (rest.length - held.buffered.length)), held)

/-- The text of some chunks: each of them is written, and the decoder ended. -/
def Decoder.decodeChunks (malformed : List UInt8 → String) : Decoder → List (List UInt8) → String
  | d, [] => decode malformed d.buffered
  | d, chunk :: chunks => (d.write malformed chunk).1 ++ (d.write malformed chunk).2.decodeChunks malformed chunks

/-! ### One character -/

/-- A character is a byte that tells how many there are, and then continuation bytes. -/
structure Character (lead : UInt8) (tail : List UInt8) : Prop where
  leads : isContinuation lead = false
  continues : ∀ byte ∈ tail, isContinuation byte = true
  short : tail.length < 4
  expected_le : expected lead ≤ tail.length + 1
  expected_eq : tail ≠ [] → expected lead = tail.length + 1

def continuation (n : Nat) : UInt8 := UInt8.ofNat (n % 64 + 0x80)

theorem isContinuation_continuation (n : Nat) : isContinuation (continuation n) = true := by
  have hall : ∀ n < 64, isContinuation (UInt8.ofNat (n + 0x80)) = true := by decide
  exact hall _ (Nat.mod_lt n (by simp))

theorem character_ascii {n : Nat} (h : n ≤ 127) : Character (UInt8.ofNat n) [] := by
  have hall : ∀ n < 128, isContinuation (UInt8.ofNat n) = false ∧ expected (UInt8.ofNat n) = 0 := by decide
  obtain ⟨leads, hexpected⟩ := hall n (Nat.lt_succ_of_le h)
  exact ⟨leads, by simp, by simp, by simp [hexpected], by simp⟩

/-- The first byte of a longer character is a marker plus its highest bits. -/
theorem character_of_lead {marker bits size : Nat} (hbits : 0 < bits)
    (hall : ∀ n < bits, isContinuation (UInt8.ofNat (n + marker)) = false ∧ expected (UInt8.ofNat (n + marker)) = size)
    (n : Nat) {parts : List Nat} (hsize : size = parts.length + 1) (short : parts.length < 4) :
    Character (UInt8.ofNat (n % bits + marker)) (parts.map continuation) := by
  obtain ⟨leads, hexpected⟩ := hall (n % bits) (Nat.mod_lt n hbits)
  have hlength : expected (UInt8.ofNat (n % bits + marker)) = (parts.map continuation).length + 1 := by
    rw [hexpected, hsize, List.length_map]
  refine ⟨leads, fun byte hbyte => ?_, by simpa using short, Nat.le_of_eq hlength, fun _ => hlength⟩
  obtain ⟨part, -, rfl⟩ := List.mem_map.mp hbyte
  exact isContinuation_continuation part

theorem exists_character (c : Char) : ∃ lead tail, String.utf8EncodeChar c = lead :: tail ∧ Character lead tail := by
  have two : ∀ n < 32, isContinuation (UInt8.ofNat (n + 0xC0)) = false ∧ expected (UInt8.ofNat (n + 0xC0)) = 2 := by
    decide
  have three : ∀ n < 16, isContinuation (UInt8.ofNat (n + 0xE0)) = false ∧ expected (UInt8.ofNat (n + 0xE0)) = 3 := by
    decide
  have four : ∀ n < 8, isContinuation (UInt8.ofNat (n + 0xF0)) = false ∧ expected (UInt8.ofNat (n + 0xF0)) = 4 := by
    decide
  fun_cases String.utf8EncodeChar c with
  | case1 v h => exact ⟨_, [], rfl, character_ascii h⟩
  | case2 v _ h =>
    exact ⟨_, [v].map continuation, rfl, character_of_lead (by simp) two (v / 64) rfl (by simp)⟩
  | case3 v _ _ h =>
    exact ⟨_, [v / 64, v].map continuation, rfl, character_of_lead (by simp) three (v / 4096) rfl (by simp)⟩
  | case4 v _ _ h =>
    exact ⟨_, [v / 4096, v / 64, v].map continuation, rfl, character_of_lead (by simp) four (v / 262144) rfl (by simp)⟩

/-- The first bytes of a character, when it is cut in two. -/
theorem exists_character_held {c : Char} {held rest : List UInt8} (hchar : String.utf8EncodeChar c = held ++ rest)
    (hheld : held ≠ []) : ∃ lead tail, held = lead :: tail ∧ Character lead (tail ++ rest) := by
  obtain ⟨lead, tail, hshape, shape⟩ := exists_character c
  obtain ⟨first, held, rfl⟩ := List.exists_cons_of_ne_nil hheld
  obtain ⟨rfl, rfl⟩ : lead = first ∧ tail = held ++ rest := by simpa [hshape] using hchar
  exact ⟨lead, held, rfl, shape⟩

theorem decode_encode (malformed : List UInt8 → String) (text : String) : decode malformed (encode text) = text := by
  have hbytes : (encode text).toByteArray = text.toByteArray := String.utf8Encode_toList
  rw [decode, hbytes, String.fromUTF8?, dif_pos text.isValidUTF8]
  rfl

/-! ### Chunks of a text -/

/-- What a decoder keeps when the characters `left` are not read, and `input` are the bytes that are to come: it is
    between two characters, or within the first of them. -/
inductive Decoder.Awaits : Decoder → (left : List Char) → (input : List UInt8) → Prop
  | between (left : List Char) : Awaits ⟨[], 0⟩ left (bytes left)
  | within {c : Char} {held rest : List UInt8} (left : List Char) (hchar : String.utf8EncodeChar c = held ++ rest)
      (hheld : held ≠ []) (hrest : rest ≠ []) : Awaits ⟨held, rest.length⟩ (c :: left) (rest ++ bytes left)

section Chunks
variable {malformed : List UInt8 → String} {d : Decoder} {chars left : List Char} {chunk more input : List UInt8}

theorem decode_bytes (malformed : List UInt8 → String) (chars : List Char) :
    decode malformed (bytes chars) = String.ofList chars := by
  rw [← decode_encode malformed (String.ofList chars), encode, String.toList_ofList]

theorem bytes_eq_nil : bytes chars = [] ↔ chars = [] := by
  cases chars with
  | nil => simp [bytes]
  | cons c chars => simp [bytes, String.utf8EncodeChar_ne_nil]

/-- Back over the last character of a chunk to its leading byte. -/
theorem holdBack_character {lead : UInt8} {trailing before held : List UInt8} (hlead : isContinuation lead = false)
    (htrailing : ∀ byte ∈ trailing, isContinuation byte = true) (hshort : held.length + trailing.length < 4) :
    holdBack held (trailing ++ lead :: before) =
      if expected lead ≤ held.length + trailing.length + 1 then ⟨[], 0⟩
      else ⟨lead :: (trailing.reverse ++ held), expected lead - (held.length + trailing.length + 1)⟩ := by
  induction trailing generalizing held with
  | nil => simp [holdBack, hlead]
  | cons byte trailing ih =>
    rw [List.length_cons] at hshort
    have hbyte : isContinuation byte = true := htrailing byte List.mem_cons_self
    have hlength : (byte :: held).length + trailing.length < 4 := by
      rw [List.length_cons]
      omega
    have hbytes := ih (fun byte h => htrailing byte (List.mem_cons_of_mem _ h)) hlength
    rw [List.cons_append, holdBack, if_pos hbyte, if_pos (by omega), hbytes]
    simp [Nat.add_assoc, Nat.add_comm 1]

/-- A chunk of a text is some of its characters and the first bytes of the next one. -/
theorem exists_read (h : chunk ++ more = bytes left) :
    ∃ read left' d, left = read ++ left' ∧ chunk = bytes read ++ d.buffered ∧ Decoder.Awaits d left' more := by
  induction left generalizing chunk with
  | nil =>
    obtain ⟨rfl, rfl⟩ := List.append_eq_nil_iff.mp h
    exact ⟨[], [], ⟨[], 0⟩, rfl, rfl, .between []⟩
  | cons c left ih =>
    have hbytes : bytes (c :: left) = String.utf8EncodeChar c ++ bytes left := List.flatMap_cons
    rw [hbytes] at h
    rcases List.append_eq_append_iff.mp h with ⟨rest, hchar, hmore⟩ | ⟨chunk', hchunk, hleft⟩
    · cases hheld : chunk with
      | nil =>
        rw [hheld, List.nil_append] at h
        exact ⟨[], c :: left, ⟨[], 0⟩, rfl, rfl, h ▸ hbytes ▸ .between (c :: left)⟩
      | cons byte held =>
        cases rest with
        | nil =>
          rw [List.append_nil] at hchar
          rw [List.nil_append] at hmore
          exact ⟨[c], left, ⟨[], 0⟩, rfl, by simp [bytes, hchar, hheld], hmore ▸ .between left⟩
        | cons next rest =>
          exact ⟨[], c :: left, ⟨chunk, (next :: rest).length⟩, rfl, hheld.symm,
            hmore ▸ .within left hchar (by simp [hheld]) (by simp)⟩
    · obtain ⟨read, left', d, rfl, rfl, awaits⟩ := ih hleft.symm
      exact ⟨c :: read, left', d, rfl, by rw [hchunk, bytes, bytes, List.flatMap_cons, List.append_assoc], awaits⟩

/-- What a decoder keeps of a chunk is the character that the chunk ends in. -/
theorem Decoder.Awaits.holdBack (h : d.Awaits left more) (read : List Char) :
    holdBack [] (bytes read ++ d.buffered).reverse = d := by
  cases h with
  | between =>
    rcases List.eq_nil_or_concat' read with rfl | ⟨read, c, rfl⟩
    · rfl
    · obtain ⟨lead, tail, hchar, shape⟩ := exists_character c
      have hbytes : (bytes (read ++ [c])).reverse = tail.reverse ++ lead :: (bytes read).reverse := by
        simp [bytes, hchar]
      rw [List.append_nil, hbytes,
        holdBack_character shape.leads (by simpa using shape.continues) (by simpa using shape.short)]
      simp [shape.expected_le]
  | @within c held rest left hchar hheld hrest =>
    obtain ⟨lead, held, rfl, shape⟩ := exists_character_held hchar hheld
    have hrest' : 0 < rest.length := List.length_pos_iff.mpr hrest
    have hexpected := shape.expected_eq (by simp [hrest])
    have hshort := shape.short
    rw [List.length_append] at hexpected hshort
    have hbytes : (bytes read ++ lead :: held).reverse = held.reverse ++ lead :: (bytes read).reverse := by simp
    rw [hbytes, holdBack_character shape.leads, if_neg]
    · simp [hexpected]
    · simp [hexpected]
      omega
    · intro byte hbyte
      exact shape.continues byte (List.mem_append_left _ (List.mem_reverse.mp hbyte))
    · simp
      omega

theorem Decoder.write_rest (malformed : List UInt8 → String) (chars : List Char) {rest found : List UInt8}
    (h : rest ++ more = bytes left) (hfound : d.found chunk = found) (hchunk : chunk = found ++ rest)
    (hdone : d.missing ≤ found.length) (hchars : d.buffered ++ found = bytes chars) :
    ∃ read left', left = read ++ left' ∧ (d.write malformed chunk).1 = String.ofList (chars ++ read) ∧
      (d.write malformed chunk).2.Awaits left' more := by
  obtain ⟨read, left', d', rfl, rfl, awaits⟩ := exists_read h
  refine ⟨read, left', rfl, ?_⟩
  have hwrite : d.write malformed chunk = (String.ofList (chars ++ read), d') := by
    simp only [Decoder.write]
    rw [hfound, if_neg (by omega), hchunk, List.drop_left, awaits.holdBack read, hchars, decode_bytes]
    simp [decode_bytes, String.ofList_append]
  rw [hwrite]
  exact ⟨rfl, awaits⟩

theorem Decoder.Awaits.write (h : d.Awaits left input) (hinput : input = chunk ++ more) :
    ∃ read left', left = read ++ left' ∧ (d.write malformed chunk).1 = String.ofList read ∧
      (d.write malformed chunk).2.Awaits left' more := by
  cases h with
  | between => exact write_rest malformed [] hinput.symm rfl rfl (Nat.le_refl 0) rfl
  | @within c held rest left hchar hheld hrest =>
    have hrests : ∀ byte ∈ rest, isContinuation byte = true := by
      obtain ⟨lead, tail, -, shape⟩ := exists_character_held hchar hheld
      exact fun byte hbyte => shape.continues byte (List.mem_append_right _ hbyte)
    rcases List.append_eq_append_iff.mp hinput with ⟨chunk', rfl, hleft⟩ | ⟨rest', rfl, rfl⟩
    · -- The chunk completes the character.
      have hfound : Decoder.found ⟨held, rest.length⟩ (rest ++ chunk') = rest := by
        rw [Decoder.found, List.take_left, List.takeWhile_eq_self_iff.mpr hrests]
      obtain ⟨read, left', rfl, htext, awaits⟩ := write_rest malformed [c] hleft.symm hfound rfl (Nat.le_refl _)
        (by simp [bytes, hchar])
      exact ⟨c :: read, left', rfl, htext, awaits⟩
    · -- The chunk ends with the character or within it.
      have hfound : Decoder.found ⟨held, (chunk ++ rest').length⟩ chunk = chunk := by
        rw [Decoder.found, List.take_of_length_le (by simp), List.takeWhile_eq_self_iff.mpr]
        exact fun byte hbyte => hrests byte (List.mem_append_left _ hbyte)
      rcases eq_or_ne rest' [] with rfl | hrest'
      · obtain ⟨read, left', rfl, htext, awaits⟩ := write_rest malformed [c] (List.nil_append (bytes left)) hfound
          (List.append_nil chunk).symm (by simp) (by simp [bytes, hchar])
        exact ⟨c :: read, left', rfl, htext, awaits⟩
      · have hlength : 0 < rest'.length := List.length_pos_iff.mpr hrest'
        have hwrite : Decoder.write malformed ⟨held, (chunk ++ rest').length⟩ chunk =
            ("", ⟨held ++ chunk, rest'.length⟩) := by
          simp only [Decoder.write]
          rw [hfound, if_pos (by simp [hlength])]
          simp
        rw [hwrite]
        exact ⟨[], c :: left, rfl, rfl, .within left (by rw [hchar, List.append_assoc]) (by simp [hheld]) hrest'⟩

theorem Decoder.Awaits.decodeChunks {chunks : List (List UInt8)} (h : d.Awaits left input)
    (hinput : input = chunks.flatten) : d.decodeChunks malformed chunks = String.ofList left := by
  induction chunks generalizing d left input with
  | nil =>
    cases h with
    | between =>
      rw [bytes_eq_nil.mp hinput]
      exact decode_bytes malformed []
    | @within c held rest left hchar hheld hrest =>
      exact absurd (List.append_eq_nil_iff.mp hinput).1 hrest
  | cons chunk chunks ih =>
    obtain ⟨read, left', rfl, htext, awaits⟩ := h.write hinput
    rw [Decoder.decodeChunks, htext, ih awaits rfl, String.ofList_append]

end Chunks

/-- A text is read back from its bytes, however they are cut into chunks. -/
theorem decodeChunks_encode (malformed : List UInt8 → String) (text : String) {chunks : List (List UInt8)}
    (h : chunks.flatten = encode text) : Decoder.decodeChunks malformed ⟨[], 0⟩ chunks = text := by
  have awaits : Decoder.Awaits ⟨[], 0⟩ text.toList chunks.flatten := h ▸ .between text.toList
  rw [awaits.decodeChunks rfl, String.ofList_toList]

example : Decoder.decodeChunks (fun _ => "?") ⟨[], 0⟩ [[0x31, 0xE2], [0x82], [0xAC]] = "1€" := rfl

example : Decoder.decodeChunks (fun _ => "?") ⟨[], 0⟩ [[0x31, 0xE2], [0x82, 0x31]] = "1?1" := rfl

end Utf8
