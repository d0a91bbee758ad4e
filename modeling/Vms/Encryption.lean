import Vms.Lib.Hex
import Vms.Lib.Utf8
import Vms.Organization
import Vms.OrganizationChange

/-! The encryption of setting codes (`src/utils/encryption.util.ts`) byte by byte: what the buffers, the ciphers and
    the decoders of Node make of the texts that `encrypt` and `decrypt` give them. -/

namespace Vms
open HttpException Hex Utf8

def ivLength : Nat := 16

/-- What a cipher gives for a text: the bytes of `update` and of `final`, and the authentication tag. -/
structure Ciphertext where
  updated : List UInt8
  final : List UInt8
  authTag : List UInt8
  deriving DecidableEq, Repr

/-- Node and its cipher `aes-256-gcm`. A decipher with the key, the initialisation vector and the tag is created first;
    what it deciphers comes in the bytes of `update` and of `final`. It inverts the cipher for a key of 32 bytes. -/
structure Node where
  /-- The text of bytes that are not UTF-8. -/
  malformed : List UInt8 → String
  encipher : (key iv text : List UInt8) → Except HttpException Ciphertext
  createDecipheriv : (key iv authTag : List UInt8) → Except HttpException Unit
  decipher : (key iv authTag encrypted : List UInt8) → Except HttpException (List UInt8 × List UInt8)
  decipher_encipher : ∀ key iv text, key.length = 32 → iv.length = ivLength → ∃ c updated final,
    encipher key iv text = .ok c ∧ createDecipheriv key iv c.authTag = .ok () ∧
    decipher key iv c.authTag (c.updated ++ c.final) = .ok (updated, final) ∧ updated ++ final = text

/-! ### Texts and bytes -/

/-- `Buffer.from(text, 'hex')`. -/
def bufferFrom : Option String → Except HttpException (List UInt8)
  | some text => .ok (fromHex text)
  | none => .error (.error ("The first argument must be of type string or an instance of Buffer, ArrayBuffer, or Array " ++
      "or an Array-like Object. Received undefined"))

def codeUnits (text : String) : Nat := text.toList.length + text.toList.countP fun c => 0x10000 ≤ c.toNat

/-- The bytes that `update(data, 'hex', 'utf8')` deciphers. -/
def updateData : Option String → Except HttpException (List UInt8)
  | some data =>
    if codeUnits data % 2 = 0 then .ok (fromHex data)
    else .error (.error ("The argument 'encoding' is invalid for data of length " ++ toString (codeUnits data) ++
      ". Received 'hex'"))
  | none => .error (.error ("The \"data\" argument must be of type string or an instance of Buffer, TypedArray, or " ++
      "DataView. Received undefined"))

namespace Node

/-- The encryption with the initialisation vector that was drawn. -/
def cipher (node : Node) (iv : List UInt8) : Cipher where
  iv := toHex iv
  cipher key _ text := do
    let c ← node.encipher (fromHex key) iv (encode text)
    return (toHex c.authTag, toHex c.updated ++ toHex c.final)

def crypto (node : Node) : Crypto where
  decipher key iv authTag encrypted := do
    let iv ← bufferFrom iv
    let authTag ← bufferFrom authTag
    node.createDecipheriv (fromHex key) iv authTag
    let encrypted ← updateData encrypted
    let (updated, final) ← node.decipher (fromHex key) iv authTag encrypted
    -- One decoder reads both, so that a character may begin in the one and end in the other.
    return Decoder.decodeChunks node.malformed ⟨[], 0⟩ [updated, final]

end Node

/-- The bytes of the three parts of encrypted data. -/
structure Parts where
  iv : List UInt8
  authTag : List UInt8
  encrypted : List UInt8
  deriving DecidableEq, Repr

/-- What `decrypt` parses data into. -/
def parse (data : String) : Except HttpException Parts := do
  let parts := (data.toList.splitOn ':').map String.ofList
  return { iv := ← bufferFrom parts[0]?, authTag := ← bufferFrom parts[1]?, encrypted := ← updateData parts[2]? }

end Vms
