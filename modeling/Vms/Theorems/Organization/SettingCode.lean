import Vms.Encryption

/-! Setting codes survive storage: what `encrypt` gives, `decrypt` reads back, and two different results are read as
    different bytes. -/

namespace Vms
open HttpException OrganizationService Hex Utf8

/-! ### The format -/

def Parts.data (parts : Parts) : String := toHex parts.iv ++ ":" ++ toHex parts.authTag ++ ":" ++ toHex parts.encrypted

section Format
variable {node : Node} {data key text : String} {iv bytes : List UInt8} {parts : Parts}

theorem codeUnits_toHex : codeUnits (toHex bytes) % 2 = 0 := by
  have hnone : (toHex bytes).toList.countP (fun c => 0x10000 ≤ c.toNat) = 0 := by
    rw [List.countP_eq_zero]
    intro c hc
    obtain ⟨n, hn⟩ := value_of_mem hc
    have hlt := toNat_lt_of_value hn
    simp
    omega
  rw [codeUnits, hnone, length_toHex]
  omega

theorem updateData_toHex : updateData (some (toHex bytes)) = .ok bytes := by
  simp [updateData, codeUnits_toHex, fromHex_toHex]

theorem splitOn_data (parts : Parts) : (parts.data.toList.splitOn ':').map String.ofList =
    [toHex parts.iv, toHex parts.authTag, toHex parts.encrypted] := by
  have hcolon : ∀ bytes : List UInt8, ':' ∉ (toHex bytes).toList := fun bytes => not_mem_toHex rfl
  have hdata : parts.data.toList = (toHex parts.iv).toList ++ ':' :: ((toHex parts.authTag).toList ++ ':' ::
      (toHex parts.encrypted).toList) := by
    simp [Parts.data]
  rw [hdata, List.splitOn_append_cons_self_of_not_mem (hcolon _), List.splitOn_append_cons_self_of_not_mem (hcolon _),
    List.splitOn_eq_singleton (hcolon _)]
  simp

theorem parse_data (parts : Parts) : parse parts.data = .ok parts := by
  rw [parse, splitOn_data]
  simp [bufferFrom, updateData_toHex, fromHex_toHex]
  rfl

/-- What is deciphered of the parts, as a text. -/
def Node.decipherParts (node : Node) (key : List UInt8) (parts : Parts) : Except HttpException String := do
  node.createDecipheriv key parts.iv parts.authTag
  let (updated, final) ← node.decipher key parts.iv parts.authTag parts.encrypted
  return Decoder.decodeChunks node.malformed ⟨[], 0⟩ [updated, final]

theorem except_bind_eq_ok {α β : Type} {x : Except HttpException α} {f : α → Except HttpException β} {b : β} :
    x >>= f = .ok b ↔ ∃ a, x = .ok a ∧ f a = .ok b := by
  cases x <;> simp [bind, Except.bind]

/-- `decrypt` deciphers the parts that it parses the data into. -/
theorem decrypt_of_parse (h : parse data = .ok parts) :
    decrypt node.crypto data key = node.decipherParts (fromHex key) parts := by
  rw [decrypt]
  unfold parse at h
  generalize (data.toList.splitOn ':').map String.ofList = texts at h ⊢
  obtain ⟨iv, hiv, h⟩ := except_bind_eq_ok.mp h
  obtain ⟨authTag, htag, h⟩ := except_bind_eq_ok.mp h
  obtain ⟨encrypted, hencrypted, h⟩ := except_bind_eq_ok.mp h
  obtain rfl := Except.ok.inj h
  unfold Node.crypto
  dsimp only
  rw [hiv, htag, hencrypted]
  rfl

/-- `encrypt` writes the initialisation vector that was drawn, and what the cipher gives. -/
theorem encrypt_eq_ok : encrypt (node.cipher iv) text key = .ok data ↔ ∃ c,
    node.encipher (fromHex key) iv (encode text) = .ok c ∧ data = Parts.data ⟨iv, c.authTag, c.updated ++ c.final⟩ := by
  have hrun : encrypt (node.cipher iv) text key =
      (node.encipher (fromHex key) iv (encode text)).map fun c => Parts.data ⟨iv, c.authTag, c.updated ++ c.final⟩ := by
    cases hencipher : node.encipher (fromHex key) iv (encode text) with
    | error e => simp [encrypt, Node.cipher, hencipher]; rfl
    | ok c => simp [encrypt, Node.cipher, hencipher, Parts.data, toHex_append]; rfl
  rw [hrun]
  cases node.encipher (fromHex key) iv (encode text) with
  | error e => simp [Except.map]
  | ok c => simp [Except.map, eq_comm]

/-! ### Storage -/

theorem decrypt_encrypt (node : Node) (text : String) (hkey : (fromHex key).length = 32) (hiv : iv.length = ivLength) :
    ∃ data, encrypt (node.cipher iv) text key = .ok data ∧ decrypt node.crypto data key = .ok text := by
  obtain ⟨c, updated, final, hencipher, hcreate, hdecipher, htext⟩ :=
    node.decipher_encipher (fromHex key) iv (encode text) hkey hiv
  refine ⟨_, encrypt_eq_ok.mpr ⟨c, hencipher, rfl⟩, ?_⟩
  rw [decrypt_of_parse (parse_data _), Node.decipherParts, hcreate, hdecipher]
  have hchunks : [updated, final].flatten = encode text := by simp [htext]
  exact congrArg Except.ok (decodeChunks_encode node.malformed text hchunks)

/-- The details of an organisation show the setting code that was stored. -/
theorem settingCode_of_encrypt {env : Env} (hcrypto : env.crypto = node.crypto) (henv : env.encryptionKey = some key)
    (hkey : (fromHex key).length = 32) (hiv : iv.length = ivLength) (h : encrypt (node.cipher iv) text key = .ok data)
    (keyNotSet : HttpException) : settingCode env keyNotSet (some data) = .ok (some text) := by
  obtain ⟨data', hdata', hdecrypt⟩ := decrypt_encrypt node text hkey hiv
  obtain rfl : data = data' := Except.ok.inj (h.symm.trans hdata')
  have hset : truthy (some key) = some key := by
    refine truthy_eq_some.mpr ⟨rfl, fun hempty => ?_⟩
    rw [hempty] at hkey
    cases hkey
  have hstored : truthy (some data) = some data := by
    obtain ⟨c, -, rfl⟩ := encrypt_eq_ok.mp h
    refine truthy_eq_some.mpr ⟨rfl, fun hempty => ?_⟩
    have hchars := congrArg String.toList hempty
    simp [Parts.data] at hchars
  rw [settingCode, hstored, henv, hset, hcrypto]
  dsimp only
  rw [hdecrypt]
  rfl

/-- `decrypt` parses data into the parts, and deciphers these. -/
def Node.Parses (node : Node) (data : String) (parts : Parts) : Prop :=
  parse data = .ok parts ∧ ∀ key, decrypt node.crypto data key = node.decipherParts (fromHex key) parts

theorem parses_encrypted (h : encrypt (node.cipher iv) text key = .ok data) :
    ∃ parts : Parts, node.Parses data parts ∧ data = parts.data := by
  obtain ⟨c, -, rfl⟩ := encrypt_eq_ok.mp h
  have hparse := parse_data ⟨iv, c.authTag, c.updated ++ c.final⟩
  exact ⟨_, ⟨hparse, fun key => decrypt_of_parse hparse⟩, rfl⟩

/-- A text is decrypted as it was encrypted; and different results of the encryption are parsed into different parts. -/
theorem setting_codes_survive_storage (node : Node) :
    (∀ text key iv, (fromHex key).length = 32 → iv.length = ivLength →
      ∃ data, encrypt (node.cipher iv) text key = .ok data ∧ decrypt node.crypto data key = .ok text) ∧
    ∀ text text' key key' iv iv' data data', encrypt (node.cipher iv) text key = .ok data →
      encrypt (node.cipher iv') text' key' = .ok data' → data ≠ data' →
      ∃ parts parts', node.Parses data parts ∧ node.Parses data' parts' ∧ parts ≠ parts' := by
  refine ⟨fun text key iv hkey hiv => decrypt_encrypt node text hkey hiv, ?_⟩
  intro text text' key key' iv iv' data data' h h' hne
  obtain ⟨parts, hparses, rfl⟩ := parses_encrypted h
  obtain ⟨parts', hparses', rfl⟩ := parses_encrypted h'
  exact ⟨parts, parts', hparses, hparses', fun hsame => hne (congrArg Parts.data hsame)⟩

end Format

/-! ### Two setting codes -/

namespace TwoCodes

def encryptionKey : String := "000102030405060708090a0b0c0d0e0f101112131415161718191a1b1c1d1e1f"

def iv1234 : List UInt8 := fromHex "00112233445566778899aabbccddeeff"

def iv5678 : List UInt8 := fromHex "ffeeddccbbaa99887766554433221100"

/-- The first bytes that the cipher adds to a text under the key. -/
def keystream (iv : List UInt8) : List UInt8 := if iv = iv1234 then fromHex "1b87e475" else fromHex "eb2d6111"

def mask : (stream text : List UInt8) → List UInt8
  | k :: stream, byte :: text => (byte ^^^ k) :: mask stream text
  | _, text => text

theorem mask_mask (stream text : List UInt8) : mask stream (mask stream text) = text := by
  fun_induction mask stream text with
  | case1 k stream byte text ih => rw [mask, ih, UInt8.xor_assoc, UInt8.xor_self, UInt8.xor_zero]
  | case2 stream text => simp [mask]

def authTag (iv text : List UInt8) : List UInt8 :=
  if iv = iv1234 ∧ text = encode "1234" then fromHex "945ae69832dbe17dea121470dcc2e048"
  else if iv = iv5678 ∧ text = encode "5678" then fromHex "11cd747b5ed9297f3f4740476caa9cde"
  else []

def checkKey (key : List UInt8) : Except HttpException Unit :=
  if key.length = 32 then .ok () else .error (.error "Invalid key length")

def node : Node where
  malformed bytes := String.ofList (bytes.map fun _ => '\uFFFD')
  encipher key iv text := do
    checkKey key
    return { updated := mask (keystream iv) text, final := [], authTag := authTag iv text }
  createDecipheriv key _ _ := checkKey key
  decipher _ iv tag encrypted :=
    if tag = authTag iv (mask (keystream iv) encrypted) then .ok (mask (keystream iv) encrypted, [])
    else .error (.error "Unsupported state or unable to authenticate data")
  decipher_encipher key iv text hkey _ := by
    have hcheck : checkKey key = .ok () := if_pos hkey
    refine ⟨{ updated := mask (keystream iv) text, final := [], authTag := authTag iv text }, text, [], ?_, hcheck, ?_,
      List.append_nil text⟩
    · rw [hcheck]
      rfl
    · rw [List.append_nil, mask_mask, if_pos rfl]

end TwoCodes

open TwoCodes in
theorem setting_codes_survive_storage_two_codes :
    (∃ data, encrypt (node.cipher iv1234) "1234" encryptionKey = .ok data ∧
      decrypt node.crypto data encryptionKey = .ok "1234") ∧
    ∃ parts parts',
      node.Parses "00112233445566778899aabbccddeeff:945ae69832dbe17dea121470dcc2e048:2ab5d741" parts ∧
      node.Parses "ffeeddccbbaa99887766554433221100:11cd747b5ed9297f3f4740476caa9cde:de1b5629" parts' ∧ parts ≠ parts' :=
  ⟨(setting_codes_survive_storage node).1 "1234" encryptionKey iv1234 rfl rfl,
    (setting_codes_survive_storage node).2 "1234" "5678" encryptionKey encryptionKey iv1234 iv5678 _ _ rfl rfl (by decide)⟩

end Vms
