import RpcHost.Json.Writer
import RpcHost.Text.Integer
/-!
Identifiers of 36 characters: 8 random bytes, then the 8 bytes of a sequence number, in
groups of 8, 4, 4, 4 and 12 hexadecimal digits. The sequence number alone keeps them apart.
-/
namespace RpcHost.Uuid

def byteDigits (byte : UInt8) : List Char :=
  [Json.hexDigit (byte.toNat / 16), Json.hexDigit (byte.toNat % 16)]

/-- The byte of `sequence` at place `place`, counted from the lowest. -/
def sequenceByte (sequence : UInt64) (place : Nat) : UInt8 :=
  UInt8.ofNat (sequence.toNat / Nat.pow 256 place)

def group (bytes : List UInt8) : List Char := bytes.flatMap byteDigits

def chars (random : Fin 8 → UInt8) (sequence : UInt64) : List Char :=
  group [random 0, random 1, random 2, random 3] ++ '-' ::
    (group [random 4, random 5] ++ '-' ::
      (group [random 6, random 7] ++ '-' ::
        (group [sequenceByte sequence 7, sequenceByte sequence 6] ++ '-' ::
          group ([5, 4, 3, 2, 1, 0].map (sequenceByte sequence)))))

def text (random : Fin 8 → UInt8) (sequence : UInt64) : String :=
  String.ofList (chars random sequence)

def hexValue (c : Char) : Nat :=
  if Text.isDigit c then c.toNat - '0'.toNat else c.toNat - 'a'.toNat + 10

def sequenceOf (cs : List Char) : Nat :=
  ((cs.drop 19).filter (· != '-')).foldl (fun n c => 16 * n + hexValue c) 0

end RpcHost.Uuid
