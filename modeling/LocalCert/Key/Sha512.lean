import LocalCert.Encoding.BigEndian

/-
  The hash function SHA-512.  Its constants are the first
  sixty-four bits of the fractions of roots of the first
  primes: cube roots in the rounds, square roots at the
  start.

  Key definitions include:
    * `Sha512.roundConstants`
    * `Sha512.compress`
    * `Sha512.hash`
-/

------------------------------------------------------------
-- Constants
------------------------------------------------------------

namespace LocalCert

namespace Sha512

/- Whether a number above one has no smaller divisor. -/
def isPrime
    (n : Nat) : Bool :=
  2 ≤ n && ((List.range n).drop 2).all (fun d => n % d != 0)

/- The first primes: eighty of them. -/
def primes : List Nat :=
  (List.range 410).filter isPrime

/- The whole root of a number, bit by bit from a power. -/
def root
    (degree : Nat)
    (n : Nat) : Nat → Nat → Nat
  | 0, found => found
  | bit + 1, found =>
      let next := found + Nat.pow 2 bit
      root degree n bit
        (if Nat.pow next degree ≤ n then next else found)

/- The first bits of the fraction of a root of a number. -/
def fraction
    (degree : Nat)
    (n : Nat) : UInt64 :=
  UInt64.ofNat
    (root degree (n * Nat.pow 2 (64 * degree)) 72 0 %
      Nat.pow 2 64)

/- The constants of the eighty rounds. -/
def roundConstants : List UInt64 :=
  primes.map (fraction 3)

/- The state at the start. -/
def initialState : List UInt64 :=
  (primes.take 8).map (fraction 2)

------------------------------------------------------------
-- Rounds
------------------------------------------------------------

/- The bits of a word moved around to the right. -/
def rotate
    (x : UInt64)
    (n : UInt64) : UInt64 :=
  (x >>> n) ||| (x <<< (64 - n))

/- The word that follows sixteen words, newest first. -/
def nextWord
    (ws : List UInt64) : UInt64 :=
  let w := fun (i : Nat) => ws.getD (i - 1) 0
  let s :=
    rotate (w 15) 1 ^^^ rotate (w 15) 8 ^^^ (w 15 >>> 7)
  let t :=
    rotate (w 2) 19 ^^^ rotate (w 2) 61 ^^^ (w 2 >>> 6)
  w 16 + s + w 7 + t

/- The words of a block and those that follow them. -/
def schedule
    (block : List UInt64) : List UInt64 :=
  ((List.range 64).foldl
    (fun ws _ => nextWord ws :: ws) block.reverse).reverse

/- One round. -/
def round
    (state : List UInt64)
    (constant word : UInt64) : List UInt64 :=
  match state with
  | [a, b, c, d, e, f, g, h] =>
      let s := rotate e 14 ^^^ rotate e 18 ^^^ rotate e 41
      let choice := (e &&& f) ^^^ ((e ^^^ 0xFFFFFFFFFFFFFFFF) &&& g)
      let t := h + s + choice + constant + word
      let u := rotate a 28 ^^^ rotate a 34 ^^^ rotate a 39
      let majority := (a &&& b) ^^^ (a &&& c) ^^^ (b &&& c)
      [t + u + majority, a, b, c, d + t, e, f, g]
  | other => other

/- The state after a block. -/
def compress
    (state block : List UInt64) : List UInt64 :=
  let last :=
    (roundConstants.zip (schedule block)).foldl
      (fun s p => round s p.1 p.2) state
  state.zipWith (· + ·) last

------------------------------------------------------------
-- Hashing
------------------------------------------------------------

/- A message filled up to whole blocks, with its length. -/
def pad
    (message : Bytes) : Bytes :=
  let zeros := (239 - message.length % 128) % 128
  message ++ [0x80] ++ List.replicate zeros 0 ++
    BigEndian.ofNat 16 (8 * message.length)

/- The words of bytes, of which there are at most so many. -/
def words
    (count : Nat)
    (bytes : Bytes) : List UInt64 :=
  match count with
  | 0 => []
  | count + 1 =>
      UInt64.ofNat (BigEndian.toNat (bytes.take 8)) ::
        words count (bytes.drop 8)

/- The state after so many blocks of some bytes. -/
def absorb
    (count : Nat)
    (state : List UInt64)
    (bytes : Bytes) : List UInt64 :=
  match count with
  | 0 => state
  | count + 1 =>
      absorb count (compress state (words 16 bytes))
        (bytes.drop 128)

/- The sixty-four bytes of the hash. -/
def hash
    (message : Bytes) : Bytes :=
  let padded := pad message
  (absorb (padded.length / 128) initialState padded).flatMap
    (fun w => BigEndian.ofNat 8 w.toNat)

end Sha512

end LocalCert
