import LocalCert.Net.Ipv4

/-
  IPv6 addresses: eight groups of sixteen bits, in
  hexadecimal with colons between them.  One run of zero
  groups may be left out.

  Key definitions include:
    * `Net.Ipv6`
    * `Net.Ipv6.ofChars?`
    * `Net.Ipv6.longestZeros`
    * `Net.Ipv6.text`
-/

------------------------------------------------------------
-- IPv6
------------------------------------------------------------

namespace LocalCert

namespace Net

/- The eight groups of an IPv6 address. -/
structure Ipv6 where
  groups : Vector UInt16 8
  deriving DecidableEq, Repr

namespace Ipv6

/- A group: one to four hexadecimal digits. -/
def group?
    (ds : List Char) : Option UInt16 :=
  if ds.isEmpty || 4 < ds.length then
    none
  else
    (ds.mapM Text.hexValue).map
      (fun vs =>
        UInt16.ofNat (vs.foldl (fun n v => 16 * n + v) 0))

/- A piece between colons is a group or empty. -/
def piece?
    (ds : List Char) : Option (Option UInt16) :=
  if ds.isEmpty then
    some none
  else
    (group? ds).map some

/-
  The pieces between colons; the last may be an IPv4 address
  that stands for two groups.
-/
def pieces? :
    List (List Char) → Option (List (Option UInt16))
  | [] => some []
  | [p] =>
      if p.contains '.' then
        (Ipv4.ofChars? p).map (fun a => a.groups.map some)
      else
        (piece? p).map (fun x => [x])
  | p :: ps => do
      let x ← piece? p
      let xs ← pieces? ps
      return x :: xs

/- The places of the empty pieces other than the ends. -/
def innerGaps
    (pieces : List (Option UInt16)) : List Nat :=
  (List.range pieces.length).filter
    (fun i =>
      0 < i && i + 1 < pieces.length &&
        pieces[i]? == some none)

/- All groups of a side of the gap, which may be empty. -/
def side?
    (pieces : List (Option UInt16)) : Option (List UInt16) :=
  if pieces == [none] then
    some []
  else
    pieces.mapM id

/-
  The groups of an address: eight of them, or fewer with one
  gap that stands for at least one zero group.
-/
def expand?
    (pieces : List (Option UInt16)) : Option (List UInt16) :=
  match innerGaps pieces with
  | [] => pieces.mapM id
  | [i] => do
      let high ← side? (pieces.take i)
      let low ← side? (pieces.drop (i + 1))
      if high.length + low.length < 8 then
        let zeros := 8 - (high.length + low.length)
        return high ++ List.replicate zeros 0 ++ low
      else
        none
  | _ => none

/- Eight groups make an address. -/
def ofGroups?
    (gs : List UInt16) : Option Ipv6 :=
  if h : gs.length = 8 then
    some ⟨⟨gs.toArray, by simpa using h⟩⟩
  else
    none

/- Read an address without a zone. -/
def ofChars?
    (cs : List Char) : Option Ipv6 := do
  let pieces ← pieces? (Text.splitAll ':' cs)
  let gs ← expand? pieces
  ofGroups? gs

------------------------------------------------------------
-- The Canonical Text
------------------------------------------------------------

/- The number of zero groups at the front. -/
def leadingZeros
    (gs : List UInt16) : Nat :=
  (gs.takeWhile (· == 0)).length

/-
  The first of the longest runs of zero groups: its place
  and its length.
-/
def longestZeros
    (gs : List UInt16) : Nat × Nat :=
  (List.range gs.length).foldl
    (fun best i =>
      let run := leadingZeros (gs.drop i)
      if best.2 < run then (i, run) else best)
    (0, 0)

/- Groups in hexadecimal with colons between them. -/
def groupsText
    (gs : List UInt16) : String :=
  Text.joinWith ":"
    (gs.map
      (fun g =>
        String.ofList (Nat.toDigits 16 g.toNat)))

/-
  The canonical text: the longest run of two or more zero
  groups is left out.
-/
def text
    (a : Ipv6) : String :=
  let gs := a.groups.toList
  let (start, run) := longestZeros gs
  if run < 2 then
    groupsText gs
  else
    groupsText (gs.take start) ++ "::" ++
      groupsText (gs.drop (start + run))

end Ipv6

end Net

end LocalCert
