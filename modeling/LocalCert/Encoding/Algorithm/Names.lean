import LocalCert.Encoding.Identifier

/-
  The identifiers of algorithms, in groups of those whose
  parameters look alike.

  Key definitions include:
    * `Algorithm.curveKey`
    * `Algorithm.rsaKey`
    * `Algorithm.edwardsKey`
    * `Algorithm.nullable`
    * `Algorithm.bare`
-/

------------------------------------------------------------
-- Keys
------------------------------------------------------------

namespace LocalCert

namespace Algorithm

open Identifier

/- Keys on elliptic curves. -/
def curveKey : Bytes :=
  ofArcs [1, 2, 840, 10045, 2, 1]

/- Algorithms on numbers that are hard to factor. -/
def rsaArcs : List Nat :=
  [1, 2, 840, 113549, 1, 1]

/- Keys of two primes. -/
def rsaKey : Bytes :=
  ofArcs (rsaArcs ++ [1])

/- Keys of two primes for one kind of signatures only. -/
def rsaPssKey : Bytes :=
  ofArcs (rsaArcs ++ [10])

/- Keys for exchange on the smaller curve. -/
def exchange25519 : Bytes := ofArcs [1, 3, 101, 110]

/- Keys for exchange on the larger curve. -/
def exchange448 : Bytes := ofArcs [1, 3, 101, 111]

/- Keys on the smaller Edwards curve. -/
def edwardsKey : Bytes := ofArcs [1, 3, 101, 112]

/- Keys on the larger Edwards curve. -/
def edwards448Key : Bytes := ofArcs [1, 3, 101, 113]

/- Keys on powers modulo a prime. -/
def dsaKey : Bytes := ofArcs [1, 2, 840, 10040, 4, 1]

/- Keys for exchange with a group of known order. -/
def exchangeKey : Bytes := ofArcs [1, 2, 840, 10046, 2, 1]

/- Keys for exchange with a prime and a base alone. -/
def plainExchangeKey : Bytes :=
  ofArcs [1, 2, 840, 113549, 1, 3, 1]

------------------------------------------------------------
-- Hashes And Signatures
------------------------------------------------------------

/- The hash that is usual where none is named. -/
def sha1 : Bytes := ofArcs [1, 3, 14, 3, 2, 26]

/- The code that is usual where none is named. -/
def hmacSha1 : Bytes :=
  ofArcs [1, 2, 840, 113549, 2, 7]

/- The mask that is usual where none is named. -/
def maskByHash : Bytes := ofArcs (rsaArcs ++ [8])

/- Newer algorithms of one authority. -/
def agencyArcs : List Nat :=
  [2, 16, 840, 1, 101, 3, 4]

/- Hashes, codes and signatures that may say null. -/
def nullable : List Bytes :=
  [sha1, ofArcs [1, 3, 14, 3, 2, 29], rsaKey] ++
    family (agencyArcs ++ [2]) [1, 2, 3, 4, 7, 8, 9, 10] ++
    family rsaArcs [5, 11, 12, 13, 14] ++
    family (agencyArcs ++ [3]) [13, 14, 15, 16] ++
    family [1, 2, 840, 113549, 2] [7, 8, 9, 10, 11]

/- The algorithms that have no parameters at all. -/
def bare : List Bytes :=
  [exchange25519, exchange448, edwardsKey, edwards448Key] ++
    family [1, 2, 840, 10045, 4, 3] [1, 2, 3, 4] ++
    family (agencyArcs ++ [3])
      [1, 2, 3, 4, 9, 10, 11, 12, 17, 18, 19] ++
    family (agencyArcs ++ [4]) [2, 3]

------------------------------------------------------------
-- Encryption
------------------------------------------------------------

/- Algorithms that start from a password. -/
def passwordArcs : List Nat :=
  [1, 2, 840, 113549, 1, 5]

/- Keys from passwords by a repeated code. -/
def repeatedCode : Bytes :=
  ofArcs (passwordArcs ++ [12])

/- A key from a password, then encryption with it. -/
def twoSteps : Bytes := ofArcs (passwordArcs ++ [13])

/- Encryption with a password and one hash. -/
def withHash : Bytes := ofArcs (passwordArcs ++ [3])

/- Encryption with a password in archives of keys. -/
def inArchives : List Bytes :=
  family [1, 2, 840, 113549, 1, 12, 1] [1, 3, 6]

/- Keys from passwords by a function that needs memory. -/
def memoryHard : Bytes :=
  ofArcs [1, 3, 6, 1, 4, 1, 11591, 4, 11]

/- Ciphers with blocks of sixteen bytes. -/
def wideCiphers : List Bytes :=
  family (agencyArcs ++ [1]) [2, 22, 42]

/- A cipher with blocks of eight bytes. -/
def tripleCipher : Bytes :=
  ofArcs [1, 2, 840, 113549, 3, 7]

/- A cipher whose keys may be weakened. -/
def weakCipher : Bytes :=
  ofArcs [1, 2, 840, 113549, 3, 2]

end Algorithm

end LocalCert
