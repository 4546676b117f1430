import LocalCert.Certificate.Extension.Basic

/-
  The timestamps that public logs give out: a list of
  records of bytes with lengths in front of them.

  Key definitions include:
    * `Extension.Record.bytes?`
    * `Extension.timestamps`
-/

------------------------------------------------------------
-- Records
------------------------------------------------------------

namespace LocalCert

namespace Certificate

namespace Extension

open Der Inspection

namespace Record

/- So many bytes, and what follows them. -/
def take?
    (count : Nat)
    (bytes : Bytes) : Option (Bytes × Bytes) :=
  if bytes.length < count then
    none
  else
    some (bytes.take count, bytes.drop count)

/- A number of so many bytes, and what follows it. -/
def number?
    (width : Nat)
    (bytes : Bytes) : Option (Nat × Bytes) := do
  let (digits, rest) ← take? width bytes
  return (BigEndian.toNat digits, rest)

/- Bytes with their length before them, and what follows. -/
def bytes?
    (bytes : Bytes) : Option (Bytes × Bytes) := do
  let (length, rest) ← number? 2 bytes
  take? length rest

end Record

------------------------------------------------------------
-- Timestamps
------------------------------------------------------------

/-
  A timestamp: the first version, the log, the time, further
  bytes, the numbers of a hash and of a signature, and the
  signature.
-/
def timestamp?
    (record : Bytes) : Option Unit := do
  let (version, rest) ← Record.number? 1 record
  let (_, rest) ← Record.take? 40 rest
  let (_, rest) ← Record.bytes? rest
  let (hash, rest) ← Record.number? 1 rest
  let (signature, rest) ← Record.number? 1 rest
  let _ ← Record.bytes? rest
  if version == 0 && 1 ≤ hash && hash ≤ 6 &&
      1 ≤ signature && signature ≤ 3 then
    return ()
  else
    none

/- Timestamps, of which there are no more than bytes. -/
def timestampsFit
    (fuel : Nat)
    (bytes : Bytes) : Bool :=
  match bytes with
  | [] => true
  | _ =>
      match fuel, Record.bytes? bytes with
      | fuel + 1, some (record, rest) =>
          (timestamp? record).isSome &&
            timestampsFit fuel rest
      | _, _ => false

/- A list of timestamps. -/
def timestamps : Check := fun e => do
  let bytes ← orMalformed e.octets?
  let (list, _) ← orMalformed (Record.bytes? bytes)
  require (timestampsFit list.length list)

end Extension

end Certificate

end LocalCert
