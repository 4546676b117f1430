import LocalCert.Certificate.GeneralName.Reading
import LocalCert.Certificate.Summary
import LocalCert.Proofs.Net.Canonical
import LocalCert.Proofs.Subject.Requests
import Mathlib.Data.List.Forall2
import Mathlib.Data.List.Nodup

/-
  What inspection shows of the names that were requested.  A
  certificate with the general names that the requested
  texts denote is shown with the names of hosts first and
  the addresses after them, each once; all but addresses of
  eight groups are shown as they were requested, and those
  by their canonical text.

  Main declarations:
    * `Subject.AltName.general?`
    * `Subject.AltName.ShownAs`
    * `Subject.forall₂_shownAs`
    * `Subject.shown_nodup`
    * `Subject.shown_names_undo_request`
-/

------------------------------------------------------------
-- Denoted Names
------------------------------------------------------------

namespace LocalCert

namespace Subject

open Certificate (GeneralName)

variable {hostname name s : String}
variable {requested : List AltName}
variable {names : List GeneralName}

namespace AltName

/- The general name that a requested name denotes. -/
def general? : AltName → Option GeneralName
  | .dns name => GeneralName.ofText? .dns name
  | .address name => GeneralName.ofText? .address name

/- Whether the name of a host is requested. -/
def isHost : AltName → Bool
  | .dns _ => true
  | .address _ => false

/- Names of hosts and addresses have different texts. -/
theorem host_text_ne_address_text
    (m n : String) :
    "DNS:" ++ m ≠ "IP:" ++ n := by
  intro hText
  have hHead := congrArg (fun s => s.toList.head?) hText
  simp at hHead

/- A requested name is known by its text. -/
theorem text_injective :
    Function.Injective text := by
  intro m n hText
  cases m with
  | dns name =>
      cases n with
      | dns other =>
          exact congrArg _
            ((String.append_right_inj _).mp hText)
      | address other =>
          exact (host_text_ne_address_text _ _ hText).elim
  | address name =>
      cases n with
      | dns other =>
          exact
            (host_text_ne_address_text _ _ hText.symm).elim
      | address other =>
          exact congrArg _
            ((String.append_right_inj _).mp hText)

/-
  How a requested name is shown: as it was requested, but an
  address of eight groups by its canonical text, which reads
  as the same address.
-/
inductive ShownAs : AltName → String → Prop where
  | host
      (name : String) :
      ShownAs (.dns name) (AltName.dns name).text
  | four
      {name : String}
      {a : Net.Ipv4}
      (read : Net.Address.ofText? name = some (.four a)) :
      ShownAs (.address name) (AltName.address name).text
  | six
      {name s : String}
      {a : Net.Ipv6}
      (read :
        Net.Address.ofText? name = some (.six a none))
      (canonical : Net.Ipv6.IsCanonical a.groups.toList s)
      (again : Net.Address.ofText? s = some (.six a none)) :
      ShownAs (.address name) ("IP:" ++ s)

/- Whatever an address is requested by, it is shown so. -/
theorem shownAs_address
    {a : Net.Address}
    (hPercent : '%' ∉ name.toList)
    (hRead : Net.Address.ofText? name = some a) :
    ShownAs (.address name) ("IP:" ++ a.text) := by
  rcases Net.Address.four_or_six_of_ofText? hPercent hRead
    with ⟨b, rfl, rfl⟩ | ⟨b, rfl⟩
  · exact .four hRead
  · exact .six hRead (Net.Ipv6.isCanonical_iff.mpr rfl)
      (Net.Address.ofText?_six_text b)

end AltName

------------------------------------------------------------
-- Denoted Names As They Are Shown
------------------------------------------------------------

/- What a row is read as, member by member. -/
theorem forall₂_of_mapM
    {α β : Type}
    {f : α → Option β}
    {as : List α}
    {bs : List β}
    (hRead : as.mapM f = some bs) :
    List.Forall₂ (fun a b => f a = some b) as bs := by
  induction as generalizing bs with
  | nil =>
      cases hRead
      exact .nil
  | cons a as ih =>
      rw [List.mapM_cons] at hRead
      rcases Option.bind_eq_some_iff.mp hRead with
        ⟨b, hFirst, hRest⟩
      rcases Option.bind_eq_some_iff.mp hRest with
        ⟨rest, hBehind, hAll⟩
      cases hAll
      exact .cons hFirst (ih hBehind)

namespace AltName

variable {n : AltName}
variable {g : GeneralName}

/- The name of a host is shown among those of hosts. -/
theorem rel_dnsText?
    (hDenoted : general? n = some g) :
    Option.Rel ShownAs (Option.guard isHost n)
      g.dnsText? := by
  cases n with
  | dns name =>
      simp only [general?, GeneralName.ofText?,
        Option.ite_none_right_eq_some] at hDenoted
      cases hDenoted.2
      exact .some (.host name)
  | address name =>
      rcases Option.map_eq_some_iff.mp hDenoted with
        ⟨a, _, rfl⟩
      exact .none

/- An address is shown among the addresses. -/
theorem rel_addressText?
    (hPercent : '%' ∉ n.text.toList)
    (hDenoted : general? n = some g) :
    Option.Rel ShownAs (Option.guard (fun n => !n.isHost) n)
      g.addressText? := by
  cases n with
  | dns name =>
      simp only [general?, GeneralName.ofText?,
        Option.ite_none_right_eq_some] at hDenoted
      cases hDenoted.2
      exact .none
  | address name =>
      rcases Option.map_eq_some_iff.mp hDenoted with
        ⟨a, hRead, rfl⟩
      rw [text, String.toList_append, List.mem_append,
        not_or] at hPercent
      exact .some (shownAs_address hPercent.2 hRead)

end AltName

/- The requested names in the order of their texts. -/
def hostsFirst
    (requested : List AltName) : List AltName :=
  requested.filter AltName.isHost ++
    requested.filter (fun n => !n.isHost)

/- Unless there is a zone, all are shown, hosts first. -/
theorem forall₂_shownAs
    (hPercent : ∀ n ∈ requested, '%' ∉ n.text.toList)
    (hDenoted :
      requested.mapM AltName.general? = some names) :
    List.Forall₂ AltName.ShownAs (hostsFirst requested)
      (Certificate.altNameTexts names) := by
  have hBoth :=
    List.forall₂_and_left _ _ |>.mpr
      ⟨hPercent, forall₂_of_mapM hDenoted⟩
  rw [hostsFirst, ← List.filterMap_eq_filter,
    ← List.filterMap_eq_filter]
  refine List.rel_append
    (List.rel_filterMap ?_ hBoth)
    (List.rel_filterMap ?_ hBoth)
  · intro n g hName
    exact AltName.rel_dnsText? hName.2
  · intro n g hName
    exact AltName.rel_addressText? hName.1 hName.2

------------------------------------------------------------
-- No Name Twice
------------------------------------------------------------

namespace AltName

variable {m n : AltName}

/- A requested name is shown in one way only. -/
theorem ShownAs.unique
    {t : String}
    (hShown : n.ShownAs s)
    (hAgain : n.ShownAs t) :
    s = t := by
  cases hShown with
  | host name =>
      cases hAgain
      rfl
  | four hRead =>
      cases hAgain with
      | four _ => rfl
      | six hOther _ _ =>
          rw [hRead] at hOther
          cases hOther
  | six hRead hCanonical _ =>
      cases hAgain with
      | four hOther =>
          rw [hRead] at hOther
          cases hOther
      | six hOther hSame _ =>
          rw [hRead] at hOther
          cases hOther
          rw [Net.Ipv6.isCanonical_iff.mp hCanonical,
            Net.Ipv6.isCanonical_iff.mp hSame]

/- A name that is no address of eight groups. -/
def IsPlain
    (n : AltName) : Prop :=
  ∀ name a,
    n = .address name →
      Net.Address.ofText? name ≠ some (.six a none)

theorem ShownAs.eq_text
    (hPlain : n.IsPlain)
    (hShown : n.ShownAs s) :
    s = n.text := by
  cases hShown with
  | host name => rfl
  | four _ => rfl
  | six hRead _ _ => exact (hPlain _ _ rfl hRead).elim

/- Only a plain name itself is shown as its text. -/
theorem ShownAs.eq_of_isPlain
    (hPlain : n.IsPlain)
    (hShown : n.ShownAs s)
    (hOther : m.ShownAs s) :
    m = n := by
  have hText := hShown.eq_text hPlain
  cases hOther with
  | host name => exact text_injective hText
  | four _ => exact text_injective hText
  | six _ _ hAgain =>
      cases n with
      | dns other =>
          exact
            (host_text_ne_address_text _ _ hText.symm).elim
      | address other =>
          rw [(String.append_right_inj _).mp hText] at hAgain
          exact (hPlain _ _ rfl hAgain).elim

end AltName

/- The loopback names are plain. -/
theorem isPlain_of_loopback :
    ∀ name ∈ loopbackNames,
      (AltName.ofName name).IsPlain := by
  have hHost :
      AltName.ofName "localhost" = .dns "localhost" := by
    decide
  have hAddress :
      AltName.ofName "127.0.0.1" = .address "127.0.0.1" := by
    decide
  have hFour :
      Net.Address.ofText? "127.0.0.1" =
        some (.four (.ofOctets 127 0 0 1)) :=
    Net.Address.ofText?_four_text (.ofOctets 127 0 0 1)
  simp only [loopbackNames, List.forall_mem_cons,
    List.not_mem_nil, false_implies, implies_true, and_true,
    hHost, hAddress]
  constructor
  · intro name a hName
    cases hName
  · intro name a hName
    cases hName
    simp [hFour]

/- No name is requested twice, as what it is told to be. -/
theorem altNames_nodup
    (hostname : String) :
    (altNames hostname).Nodup := by
  refine (names_nodup hostname).map ?_
  intro name other hSame
  unfold AltName.ofName at hSame
  split at hSame
  · split at hSame
    · exact AltName.address.inj hSame
    · cases hSame
  · split at hSame
    · cases hSame
    · exact AltName.dns.inj hSame

/-
  Requested names are shown differently if they differ: of
  any two, one is a loopback name and so plain.
-/
theorem eq_of_shownAs
    {m n : AltName}
    (hFirst : m ∈ altNames hostname)
    (hSecond : n ∈ altNames hostname)
    (hShown : m.ShownAs s)
    (hAgain : n.ShownAs s) :
    m = n := by
  rcases List.mem_map.mp hFirst with ⟨a, ha, rfl⟩
  rcases List.mem_map.mp hSecond with ⟨b, hb, rfl⟩
  rcases List.mem_cons.mp ha with rfl | hLoopback
  · rcases List.mem_cons.mp hb with rfl | hLoopback
    · rfl
    · exact hAgain.eq_of_isPlain
        (isPlain_of_loopback b
          (List.mem_filter.mp hLoopback).1) hShown
  · exact (hShown.eq_of_isPlain
      (isPlain_of_loopback a
        (List.mem_filter.mp hLoopback).1) hAgain).symm

theorem hostsFirst_perm
    (requested : List AltName) :
    (hostsFirst requested).Perm requested :=
  List.filter_append_perm AltName.isHost requested

/- So nothing is shown twice. -/
theorem shown_nodup
    {shown : List String}
    (hShown :
      List.Forall₂ AltName.ShownAs
        (hostsFirst (altNames hostname)) shown) :
    shown.Nodup := by
  have hPerm := hostsFirst_perm (altNames hostname)
  have hMembers :=
    (List.forall₂_and_left _ _).mpr
      ⟨fun n hn => hPerm.mem_iff.mp hn, hShown⟩
  refine (List.rel_nodup ?_ hMembers).mp
    (hPerm.nodup_iff.mpr (altNames_nodup hostname))
  constructor
  · intro m n s hFirst hSecond
    exact eq_of_shownAs hFirst.1 hSecond.1 hFirst.2
      hSecond.2
  · intro n s t hFirst hSecond
    exact hFirst.2.unique hSecond.2

------------------------------------------------------------
-- Reading The Request
------------------------------------------------------------

/- The text of the names is read as the names. -/
theorem readAltNames?_altNamesText
    (hFits : Hostname.Fits hostname) :
    readAltNames? (altNamesText hostname) =
      some (altNames hostname) := by
  have hPair :
      ∀ name,
        altNameOfPair? (label name, name) =
          some (AltName.ofName name) := by
    intro name
    unfold label AltName.ofName
    split
    · rfl
    · rfl
  rw [readAltNames?, readPairs?_altNamesText hFits,
    altNames]
  simp only [Option.bind_eq_bind, Option.bind_some]
  induction names hostname with
  | nil => rfl
  | cons name rest ih =>
      rw [List.map_cons, List.mapM_cons, hPair, ih]
      rfl

/- Each name that is read denotes a general name. -/
theorem isSome_general?
    (hFits : Hostname.Fits hostname) :
    ∀ n ∈ altNames hostname,
      (AltName.general? n).isSome = true := by
  have hAscii :
      ∀ name ∈ names hostname,
        GeneralName.isAscii name = true :=
    forall_mem_names
      (P := fun name => GeneralName.isAscii name = true)
      (List.all_eq_true.mpr hFits.ascii) (by decide)
  intro n hn
  rcases List.mem_map.mp hn with ⟨name, hName, rfl⟩
  unfold AltName.ofName
  split
  · next hAddress =>
      rw [AltName.general?, GeneralName.ofText?,
        Option.isSome_map, hAddress]
  · simp [AltName.general?, GeneralName.ofText?,
      hAscii name hName]

/- A percent sign in the text is one of the hostname. -/
theorem percent_not_mem_text
    (hPercent : '%' ∉ hostname.toList) :
    ∀ n ∈ altNames hostname, '%' ∉ n.text.toList := by
  have hNames :
      ∀ name ∈ names hostname, '%' ∉ name.toList :=
    forall_mem_names hPercent (by decide)
  intro n hn
  rcases List.mem_map.mp hn with ⟨name, hName, rfl⟩
  have hLabel : '%' ∉ (label name).toList := by
    unfold label
    split <;> decide
  simp [text_ofName, hLabel, hNames name hName]

------------------------------------------------------------
-- The Names Come Back
------------------------------------------------------------

/-
  For every hostname that passes and names no zone, the text
  of the names is read as names that each denote a general
  name.  A certificate with these general names, in this
  order, is shown with every one of them and with no others:
  the names of hosts first, in order, then the addresses, in
  order, and nothing twice.
-/
theorem shown_names_undo_request
    (hValid : Hostname.validate hostname = .ok hostname)
    (hPercent : '%' ∉ hostname.toList) :
    ∃ requested names,
      readAltNames? (altNamesText hostname) =
          some requested ∧
        Text.joinWith "," (requested.map AltName.text) =
          altNamesText hostname ∧
        requested.mapM AltName.general? = some names ∧
        ∀ c : Certificate,
          c.altNames = .ok (some names) →
          ∃ shown,
            c.shownAltNames = .ok shown ∧
              List.Forall₂ AltName.ShownAs
                (requested.filter AltName.isHost ++
                  requested.filter (fun n => !n.isHost))
                shown ∧
              shown.Nodup := by
  have hFits := Hostname.validate_eq_ok_iff.mp hValid
  rcases Option.isSome_iff_exists.mp
      (Text.isSome_mapM_iff.mpr (isSome_general? hFits)) with
    ⟨names, hDenoted⟩
  refine ⟨altNames hostname, names,
    readAltNames?_altNamesText hFits, rfl, hDenoted, ?_⟩
  intro c hCarried
  have hShown :=
    forall₂_shownAs (percent_not_mem_text hPercent) hDenoted
  refine ⟨Certificate.altNameTexts names, ?_, hShown,
    shown_nodup hShown⟩
  rw [Certificate.shownAltNames, hCarried]
  rfl

/-
  A certificate for an address in upper case and with a zero
  group spelled out.
-/
def addressLines : List String :=
  ["-----BEGIN CERTIFICATE-----",
    "MH0wcaADAgECAgEBMAUGAytlcDAAMB4XDTI0MDEwMjAzMDQwNVoXDTI0MDIwMTAz",
    "MDQwNVowADAKMAUGAytlcAMBAKMwMC4wLAYDVR0RBCUwI4cQIAENuAAAAAAAAAAA",
    "AAAAAYIJbG9jYWxob3N0hwR/AAABMAUGAytlcAMBAA==",
    "-----END CERTIFICATE-----"]

/- The lines as the bytes of a file. -/
def addressPem : Bytes :=
  Text.Utf8.encode
    (addressLines.flatMap (fun l => l.toList ++ ['\n']))

/- Its address is shown in the canonical way. -/
theorem shown_names_for_address :
    Hostname.validate "2001:DB8:0::1" =
        .ok "2001:DB8:0::1" ∧
      '%' ∉ "2001:DB8:0::1".toList ∧
      altNamesText "2001:DB8:0::1" =
        "IP:2001:DB8:0::1,DNS:localhost,IP:127.0.0.1" ∧
      ∃ c shown,
        Certificate.ofPem addressPem = .ok c ∧
          c.shownAltNames = .ok shown ∧ shown.Nodup ∧
          shown =
            ["DNS:localhost", "IP:2001:db8::1",
              "IP:127.0.0.1"] := by
  have hValid :
      Hostname.validate "2001:DB8:0::1" =
        .ok "2001:DB8:0::1" := by
    decide
  have hPercent : '%' ∉ "2001:DB8:0::1".toList := by decide
  have hText :
      altNamesText "2001:DB8:0::1" =
        "IP:2001:DB8:0::1,DNS:localhost,IP:127.0.0.1" := by
    decide +kernel
  let carried : List GeneralName :=
    [.address (.six ⟨#v[0x2001, 0xdb8, 0, 0, 0, 0, 0, 1]⟩ none),
      .dns "localhost",
      .address (.four (.ofOctets 127 0 0 1))]
  have hRequested :
      readAltNames? (altNamesText "2001:DB8:0::1") =
        some [.address "2001:DB8:0::1", .dns "localhost",
          .address "127.0.0.1"] := by
    decide +kernel
  have hNames :
      [AltName.address "2001:DB8:0::1", .dns "localhost",
          .address "127.0.0.1"].mapM AltName.general? =
        some carried := by
    decide +kernel
  have hCarried :
      (Certificate.ofPem addressPem).bind
          Certificate.altNames =
        .ok (some carried) := by
    decide +kernel
  rcases shown_names_undo_request hValid hPercent with
    ⟨requested, names, hRead, _, hDenoted, hShown⟩
  rw [hRequested] at hRead
  cases hRead
  rw [hNames] at hDenoted
  cases hDenoted
  cases hCert : Certificate.ofPem addressPem with
  | error d =>
      rw [hCert] at hCarried
      cases hCarried
  | ok c =>
      rw [hCert] at hCarried
      rcases hShown c hCarried with ⟨shown, hOut, _, hOnce⟩
      refine ⟨hValid, hPercent, hText, c, shown, rfl, hOut,
        hOnce, ?_⟩
      have hTexts : c.altNames = .ok (some carried) := hCarried
      rw [Certificate.shownAltNames, hTexts] at hOut
      rw [← Except.ok.inj hOut]
      decide +kernel

end Subject

end LocalCert
