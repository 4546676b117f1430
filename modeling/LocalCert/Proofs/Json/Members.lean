import LocalCert.Json.Value
import Mathlib.Data.List.Nodup

/-
  The members of an object: which keys and which values are
  there when members have been put into it, left out of it,
  or merged into it, where the last value of a key counts.

  Main declarations:
    * `Json.keys`
    * `Json.lastValueOf?`
    * `Json.valueOf?_put`
    * `Json.valueOf?_putAll`
    * `Json.nodup_keys_putAll`
-/

------------------------------------------------------------
-- Keys
------------------------------------------------------------

namespace LocalCert

namespace Json

/- The keys of members, in order. -/
def keys
    (members : Members) : List String :=
  members.map Prod.fst

variable {members others : Members}
variable {key name : String}
variable {value : Json}

theorem hasKey_iff :
    hasKey members key = true ↔ key ∈ keys members := by
  simp [hasKey, keys]

/- A key without a value is none of the keys. -/
theorem valueOf?_eq_none_iff :
    valueOf? members key = none ↔ key ∉ keys members := by
  simp only [valueOf?, keys, Option.map_eq_none_iff,
    List.find?_eq_none, List.mem_map, beq_iff_eq,
    not_exists, not_and]

theorem mem_keys_iff :
    key ∈ keys members ↔
      (valueOf? members key).isSome = true := by
  rw [Option.isSome_iff_ne_none, ne_eq,
    valueOf?_eq_none_iff, not_not]

/- A key that is there once has the value it stands with. -/
theorem valueOf?_eq_some_of_mem
    {m : String × Json}
    (hOnce : (keys members).Nodup)
    (hMember : m ∈ members) :
    valueOf? members m.1 = some m.2 := by
  induction members with
  | nil => cases hMember
  | cons first members ih =>
      simp only [keys, List.map_cons, List.nodup_cons]
        at hOnce
      rcases List.mem_cons.mp hMember with rfl | hRest
      · simp [valueOf?]
      · have hOther : first.1 ≠ m.1 := by
          intro hSame
          exact hOnce.1
            (hSame ▸ List.mem_map_of_mem hRest)
        have hFound := ih hOnce.2 hRest
        simpa [valueOf?, hOther] using hFound

@[simp] theorem valueOf?_append :
    valueOf? (members ++ others) key =
      (valueOf? members key).or (valueOf? others key) := by
  simp [valueOf?, List.find?_append, Option.map_or]

/- Of members that are left out by their keys. -/
theorem valueOf?_filter
    (keeps : String → Bool) :
    valueOf? (members.filter (fun m => keeps m.1)) key =
      if keeps key then valueOf? members key else none := by
  have hBoth :
      (fun m : String × Json =>
          decide (keeps m.1 = true ∧ (m.1 == key) = true)) =
        fun m => keeps key && m.1 == key := by
    funext m
    by_cases hHere : m.1 = key <;> simp [hHere]
  rw [valueOf?, List.find?_filter, hBoth]
  cases hKeeps : keeps key <;> simp [valueOf?]

theorem nodup_keys_filter
    {keeps : String × Json → Bool}
    (hOnce : (keys members).Nodup) :
    (keys (members.filter keeps)).Nodup :=
  hOnce.sublist (List.filter_sublist.map Prod.fst)

------------------------------------------------------------
-- Putting
------------------------------------------------------------

/- All values of a key give way to another one. -/
theorem valueOf?_replace :
    valueOf?
        (members.map
          (fun m => if m.1 == name then (name, value) else m))
        key =
      if key = name then
        if name ∈ keys members then some value else none
      else
        valueOf? members key := by
  have hKeeps :
      ((fun m : String × Json => m.1 == key) ∘
          fun m => if m.1 == name then (name, value) else m) =
        fun m => m.1 == key := by
    funext m
    by_cases hHere : m.1 = name <;> simp [hHere]
  rw [valueOf?, List.find?_map, hKeeps, Option.map_map]
  by_cases hSame : key = name
  · subst hSame
    rw [if_pos rfl]
    cases hFind : members.find? (fun m => m.1 == key) with
    | none =>
        have hNone : valueOf? members key = none := by
          rw [valueOf?, hFind]
          rfl
        rw [if_neg (valueOf?_eq_none_iff.mp hNone)]
        rfl
    | some m =>
        have hHere : m.1 = key := by
          simpa using List.find?_some hFind
        have hMember : key ∈ keys members := by
          rw [mem_keys_iff, valueOf?, hFind]
          rfl
        rw [if_pos hMember]
        simp [hHere]
  · rw [if_neg hSame, valueOf?]
    cases hFind : members.find? (fun m => m.1 == key) with
    | none => rfl
    | some m =>
        have hHere : m.1 = key := by
          simpa using List.find?_some hFind
        simp [hHere, hSame]

theorem valueOf?_put :
    valueOf? (put members name value) key =
      if key = name then
        some value
      else
        valueOf? members key := by
  unfold put
  by_cases hThere : name ∈ keys members
  · rw [if_pos (hasKey_iff.mpr hThere), valueOf?_replace,
      if_pos hThere]
  · rw [if_neg (mt hasKey_iff.mp hThere), valueOf?_append]
    by_cases hSame : key = name
    · subst hSame
      rw [valueOf?_eq_none_iff.mpr hThere]
      simp [valueOf?]
    · have hOther : name ≠ key := Ne.symm hSame
      simp [valueOf?, hSame, hOther]

theorem keys_put :
    keys (put members name value) =
      if name ∈ keys members then
        keys members
      else
        keys members ++ [name] := by
  unfold put
  by_cases hThere : name ∈ keys members
  · rw [if_pos (hasKey_iff.mpr hThere), if_pos hThere]
    simp only [keys, List.map_map]
    refine List.map_congr_left ?_
    intro m _
    by_cases hHere : m.1 = name <;> simp [hHere]
  · rw [if_neg (mt hasKey_iff.mp hThere), if_neg hThere]
    simp [keys]

/- No key comes to be there twice. -/
theorem nodup_keys_put
    (hOnce : (keys members).Nodup) :
    (keys (put members name value)).Nodup := by
  rw [keys_put]
  split
  · exact hOnce
  · rw [← List.concat_eq_append]
    exact hOnce.concat ‹_›

------------------------------------------------------------
-- Merging
------------------------------------------------------------

/-
  The value of a key, the last one if the key is given more
  than once.
-/
def lastValueOf?
    (members : Members)
    (key : String) : Option Json :=
  valueOf? members.reverse key

theorem lastValueOf?_eq_none_iff :
    lastValueOf? members key = none ↔
      key ∉ keys members := by
  rw [lastValueOf?, valueOf?_eq_none_iff]
  simp [keys]

theorem lastValueOf?_filter
    (keeps : String → Bool) :
    lastValueOf? (members.filter (fun m => keeps m.1)) key =
      if keeps key then
        lastValueOf? members key
      else
        none := by
  rw [lastValueOf?, ← List.filter_reverse, valueOf?_filter]
  rfl

theorem lastValueOf?_put :
    lastValueOf? (put members name value) key =
      if key = name then
        some value
      else
        lastValueOf? members key := by
  unfold put lastValueOf?
  by_cases hThere : name ∈ keys members
  · have hTurned : name ∈ keys members.reverse := by
      simpa [keys] using hThere
    rw [if_pos (hasKey_iff.mpr hThere), ← List.map_reverse,
      valueOf?_replace, if_pos hTurned]
  · rw [if_neg (mt hasKey_iff.mp hThere),
      List.reverse_append, valueOf?_append]
    by_cases hSame : key = name
    · simp [valueOf?, hSame]
    · have hOther : name ≠ key := Ne.symm hSame
      simp [valueOf?, hSame, hOther]

/- What is merged in comes before what was there. -/
theorem valueOf?_putAll :
    valueOf? (putAll members others) key =
      (lastValueOf? others key).or
        (valueOf? members key) := by
  induction others generalizing members with
  | nil => rfl
  | cons m others ih =>
      have hSplit :
          lastValueOf? (m :: others) key =
            (lastValueOf? others key).or
              (valueOf? [m] key) := by
        rw [lastValueOf?, List.reverse_cons,
          valueOf?_append]
        rfl
      have hStep :
          putAll members (m :: others) =
            putAll (put members m.1 m.2) others := rfl
      rw [hStep, ih, valueOf?_put, hSplit, Option.or_assoc]
      by_cases hSame : key = m.1
      · simp [valueOf?, hSame]
      · have hOther : m.1 ≠ key := Ne.symm hSame
        simp [valueOf?, hSame, hOther]

theorem nodup_keys_putAll
    (hOnce : (keys members).Nodup) :
    (keys (putAll members others)).Nodup := by
  induction others generalizing members with
  | nil => exact hOnce
  | cons m others ih => exact ih (nodup_keys_put hOnce)

end Json

end LocalCert
