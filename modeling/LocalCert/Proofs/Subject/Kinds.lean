import LocalCert.Proofs.Net.Literals
import LocalCert.Proofs.Subject.Requests

/-
  The kinds of the requested names.  A hostname that passes
  is asked for as an address exactly if it is a literal of
  the grammar of addresses, and as a name of a host in every
  other case; so are the loopback names.

  Main declarations:
    * `Subject.label_eq_address_iff`
    * `Subject.label_eq_host_iff`
    * `Subject.names_labelled_by_grammar`
-/

------------------------------------------------------------
-- Labels
------------------------------------------------------------

namespace LocalCert

namespace Subject

variable {hostname name : String}

theorem label_eq_address_iff
    (hSlash : '/' ∉ name.toList) :
    label name = "IP" ↔ Net.IsLiteral name.toList := by
  rw [← Net.Address.isSome_ofText?_iff hSlash]
  unfold label
  split
  · next hAddress => simp [hAddress]
  · next hHost => simp [hHost]

theorem label_eq_host_iff
    (hSlash : '/' ∉ name.toList) :
    label name = "DNS" ↔ ¬ Net.IsLiteral name.toList := by
  rw [← label_eq_address_iff hSlash]
  unfold label
  split
  · simp
  · simp

------------------------------------------------------------
-- Requested Kinds
------------------------------------------------------------

/-
  For every hostname that passes, the requested names read
  as pairs of a kind and a name.  The hostname comes first,
  none comes twice, and each kind is the one that the
  grammar of address literals says.
-/
theorem names_labelled_by_grammar
    (hValid : Hostname.validate hostname = .ok hostname) :
    ∃ pairs,
      readPairs? ':'
          (Text.splitAll ','
            (altNamesText hostname).toList) =
        some pairs ∧
      (pairs.map Prod.snd).head? = some hostname ∧
      (pairs.map Prod.snd).Nodup ∧
      ∀ pair ∈ pairs,
        (pair.1 = "IP" ↔ Net.IsLiteral pair.2.toList) ∧
        (pair.1 = "DNS" ↔ ¬ Net.IsLiteral pair.2.toList) := by
  have hFits := Hostname.validate_eq_ok_iff.mp hValid
  have hSlash : ∀ name ∈ names hostname, '/' ∉ name.toList :=
    forall_mem_names (hFits.not_mem (by decide)) (by decide)
  have hNames :
      ((names hostname).map
          (fun name => (label name, name))).map Prod.snd =
        names hostname := by
    rw [List.map_map]
    exact List.map_id _
  refine ⟨_, readPairs?_altNamesText hFits, ?_, ?_, ?_⟩
  · rw [hNames]
    rfl
  · rw [hNames]
    exact names_nodup hostname
  · intro pair hPair
    rcases List.mem_map.mp hPair with ⟨name, hName, rfl⟩
    exact ⟨label_eq_address_iff (hSlash name hName),
      label_eq_host_iff (hSlash name hName)⟩

/-
  Groups on both sides of a double colon, octets at the end
  and a zone: the grammar has it, and it is asked for as an
  address.
-/
theorem zoned_literal_labelled_as_address :
    Hostname.validate "fe80::A:10.0.0.1%eth0" =
        .ok "fe80::A:10.0.0.1%eth0" ∧
      readPairs? ':'
          (Text.splitAll ','
            (altNamesText "fe80::A:10.0.0.1%eth0").toList) =
        some [("IP", "fe80::A:10.0.0.1%eth0"),
          ("DNS", "localhost"), ("IP", "127.0.0.1")] ∧
      Net.IsLiteral "fe80::A:10.0.0.1%eth0".toList ∧
      ¬ Net.IsLiteral "localhost".toList := by
  have hValid :
      Hostname.validate "fe80::A:10.0.0.1%eth0" =
        .ok "fe80::A:10.0.0.1%eth0" := by
    decide +kernel
  have hPairs :
      readPairs? ':'
          (Text.splitAll ','
            (altNamesText "fe80::A:10.0.0.1%eth0").toList) =
        some [("IP", "fe80::A:10.0.0.1%eth0"),
          ("DNS", "localhost"), ("IP", "127.0.0.1")] := by
    decide +kernel
  rcases names_labelled_by_grammar hValid with
    ⟨pairs, hRead, _, _, hKinds⟩
  rw [hPairs] at hRead
  cases hRead
  exact ⟨hValid, hPairs,
    (hKinds ("IP", "fe80::A:10.0.0.1%eth0") (by simp)).1.mp
      rfl,
    (hKinds ("DNS", "localhost") (by simp)).2.mp rfl⟩

end Subject

end LocalCert
