import Gearman.Client.Ketama
import Gearman.Net
import Gearman.Verify.Text

/-!
# One server, one host and port

An address is dialled, certified and hashed. The standard library, `server_name` and
`split_host_port` each take it apart on their own, and they find the same host and
port in a DNS name, an IPv4 address and an IPv6 address in brackets. Without brackets
a colon of an IPv6 address is like the one in front of the port: the first two still
cut at the last one, and `split_host_port` takes the whole text for a host.
-/

namespace Gearman

open Admin (stripPrefix splitOnce stripPrefix_eq_some_iff splitOnce_eq_some_iff splitOnce_eq_none)
open Client (splitHostPort defaultPort)

/-- Letters, digits, hyphens, underscores and dots. -/
def DnsName (host : String) : Prop :=
  ∀ c ∈ host.toList, c.isAlphanum = true ∨ c = '-' ∨ c = '_' ∨ c = '.'

/-- How a host stands in front of the port, and the host itself. -/
inductive Written : String → String → Prop
  | name {host : String} (h : DnsName host) : Written host host
  | ipv4 {host : String} (h : IpLiteral.isIpv4 host.toList = true) : Written host host
  | bracketed {host : String} (h : IpLiteral.isIpv6 host.toList = true) :
      Written ("[" ++ host ++ "]") host
  | bare {host : String} (h : IpLiteral.isIpv6 host.toList = true) : Written host host

/-- A port other than 0 in decimal digits. -/
structure PortText (text : String) (port : UInt16) : Prop where
  digits : text.toList.all Char.isDigit = true
  value : parseU16 text = some port
  pos : port ≠ 0

theorem portText_decimal {port : UInt16} (h : port ≠ 0) : PortText (decimal port.toNat) port where
  digits := by
    unfold decimal
    rw [Nat.toString_eq_ofList_toDigits, String.toList_ofList, List.all_eq_true]
    exact fun c hc => Nat.isDigit_of_mem_toDigits (by omega) (by omega) hc
  value := by
    have hle : port.toNat ≤ 2 ^ 16 - 1 := Nat.le_pred_of_lt port.toNat_lt
    unfold parseU16
    rw [parseUnsigned_decimal hle, Option.map_some, UInt16.ofNat_toNat]
  pos := h

/-! ## The pieces of an address -/

theorem toList_address (host port : String) :
    (host ++ ":" ++ port).toList = host.toList ++ ':' :: port.toList := by
  rw [String.toList_append, String.toList_append, List.append_assoc]
  rfl

theorem toList_bracketed (host : String) :
    ("[" ++ host ++ "]").toList = '[' :: (host.toList ++ [']']) := by
  rw [String.toList_append, String.toList_append]
  rfl

theorem stripPrefix_bracket {s : String} (h : '[' ∉ s.toList) : stripPrefix "[" s = none := by
  apply Option.eq_none_iff_forall_not_mem.mpr
  intro rest hrest
  apply h
  rw [stripPrefix_eq_some_iff.mp hrest, String.toList_append]
  exact List.mem_append_left _ List.mem_cons_self

theorem stripSuffix_append (s tail : String) : stripSuffix tail (s ++ tail) = some s := by
  unfold stripSuffix
  rw [String.toList_append, List.isSuffixOf_iff_suffix.mpr (List.suffix_append _ _), if_pos rfl,
    List.length_append, Nat.add_sub_cancel, List.take_left, String.ofList_toList]

/-- The last colon is the one in front of the port. -/
theorem cut_reverse_address {host port : String} (hport : ':' ∉ port.toList) :
    Delimited.cut ':' (host.toList ++ ':' :: port.toList).reverse
      = some (port.toList.reverse, host.toList.reverse) := by
  rw [List.reverse_append, List.reverse_cons, List.append_assoc]
  exact Delimited.cut_eq_some_iff.mpr ⟨by rwa [List.mem_reverse], rfl⟩

theorem rsplitOnce_address {host port : String} (hport : ':' ∉ port.toList) :
    rsplitOnce ':' (host ++ ":" ++ port) = some (host, port) := by
  rw [rsplitOnce, toList_address, cut_reverse_address hport, Option.map_some]
  dsimp only
  rw [List.reverse_reverse, List.reverse_reverse, String.ofList_toList, String.ofList_toList]

theorem splitOnce_address {host port : String} (hhost : ':' ∉ host.toList) :
    splitOnce ':' (host ++ ":" ++ port) = some (host, port) :=
  splitOnce_eq_some_iff.mpr ⟨hhost, toList_address host port⟩

namespace PortText

variable {text : String} {port : UInt16}

theorem notMem (h : PortText text port) {c : Char} (hc : c.isDigit = false) : c ∉ text.toList := by
  intro hmem
  have hdigit := List.all_eq_true.mp h.digits c hmem
  rw [hc] at hdigit
  cases hdigit

theorem readPort (h : PortText text port) : readPort text = some port := by
  rw [Gearman.readPort, h.digits, if_pos rfl, h.value]

/-- The default port stands in for no port and for port 0 only. -/
theorem getD (h : PortText text port) :
    (((some text).bind parseU16).filter (· ≠ 0)).getD defaultPort = port := by
  rw [Option.bind_some, h.value, Option.filter_some, if_pos (decide_eq_true h.pos)]
  rfl

end PortText

/-! ## What hosts are made of -/

/-- A host without colons and brackets. -/
structure Plain (host : String) : Prop where
  colonFree : ':' ∉ host.toList
  bracketFree : '[' ∉ host.toList

theorem DnsName.plain {host : String} (h : DnsName host) : Plain host where
  colonFree hmem := absurd (h _ hmem) (by decide)
  bracketFree hmem := absurd (h _ hmem) (by decide)

theorem plain_of_isIpv4 {host : String} (h : IpLiteral.isIpv4 host.toList = true) : Plain host where
  colonFree hmem := absurd (IpLiteral.mem_of_isIpv4 h hmem) (by decide)
  bracketFree hmem := absurd (IpLiteral.mem_of_isIpv4 h hmem) (by decide)

theorem Plain.not_isIpv6 {host : String} (h : Plain host) :
    IpLiteral.isIpv6 host.toList = false := by
  by_contra hip
  exact h.colonFree (IpLiteral.mem_of_isIpv6 (Bool.not_eq_false _ ▸ hip)).2

/-- There is no bracket and no scope in an IPv6 address. -/
theorem notMem_of_isIpv6 {host : String} (h : IpLiteral.isIpv6 host.toList = true) {c : Char}
    (hc : c = '[' ∨ c = ']' ∨ c = '%') : c ∉ host.toList := by
  intro hmem
  have hchar := (IpLiteral.mem_of_isIpv6 h).1 c hmem
  unfold IpLiteral.Ipv6Char at hchar
  rcases hc with rfl | rfl | rfl <;> exact absurd hchar (by decide)

theorem isIpv6_bracketed (host : String) :
    IpLiteral.isIpv6 ("[" ++ host ++ "]").toList = false := by
  by_contra hip
  have hmem : '[' ∈ ("[" ++ host ++ "]").toList := by
    rw [toList_bracketed]
    exact List.mem_cons_self
  exact notMem_of_isIpv6 (Bool.not_eq_false _ ▸ hip) (.inl rfl) hmem

/-! ## Three readings of a host without colons -/

section Readings

variable {host text : String} {port : UInt16}

theorem toSocketAddrs_plain (hhost : Plain host) (hport : PortText text port) :
    toSocketAddrs (host ++ ":" ++ text) = some (host, port) := by
  have hbracket : '[' ∉ (host ++ ":" ++ text).toList := by
    rw [toList_address]
    simp [hhost.bracketFree, hport.notMem (c := '[') rfl]
  have hliteral : parseSocketAddr (host ++ ":" ++ text)
      = if IpLiteral.isIpv4 host.toList then some (host, port) else none := by
    unfold parseSocketAddr
    rw [stripPrefix_bracket hbracket, splitOnce_address hhost.colonFree]
    dsimp only [Option.bind_some]
    rw [hport.readPort, Option.map_some]
  unfold toSocketAddrs
  rw [hliteral]
  cases IpLiteral.isIpv4 host.toList with
  | true => rfl
  | false =>
    rw [rsplitOnce_address (hport.notMem rfl), Option.bind_some]
    dsimp only
    rw [hport.value]
    rfl

/-- The ring cuts at the last colon unless there is another in front of it. -/
theorem splitHostPort_unbracketed (hhost : '[' ∉ host.toList) (hport : PortText text port) :
    splitHostPort (host ++ ":" ++ text)
      = if ':' ∈ host.toList then (host ++ ":" ++ text, defaultPort) else (host, port) := by
  unfold splitHostPort
  rw [toList_address]
  split
  next host' port' hparts =>
    split at hparts
    · next rest hbracket =>
      exfalso
      rcases List.append_eq_cons_iff.mp hbracket with ⟨-, hcolon⟩ | ⟨cs, hhead, -⟩
      · cases hcolon
      · exact hhost (hhead ▸ List.mem_cons_self)
    · rw [cut_reverse_address (hport.notMem rfl)] at hparts
      dsimp only at hparts
      rw [List.reverse_reverse, List.reverse_reverse, String.ofList_toList,
        String.ofList_toList] at hparts
      by_cases hcolon : ':' ∈ host.toList
      · rw [if_neg fun hfree => hfree (List.mem_reverse.mpr hcolon)] at hparts
        cases hparts
        rw [if_pos hcolon]
        rfl
      · rw [if_pos fun hmem => hcolon (List.mem_reverse.mp hmem)] at hparts
        cases hparts
        rw [if_neg hcolon, hport.getD]

theorem parseSocketAddr_bracketed (hhost : IpLiteral.isIpv6 host.toList = true)
    (hport : PortText text port) :
    parseSocketAddr ("[" ++ host ++ "]" ++ ":" ++ text) = some (host, port) := by
  have hstart : stripPrefix "[" ("[" ++ host ++ "]" ++ ":" ++ text)
      = some (host ++ "]" ++ (":" ++ text)) := by
    rw [stripPrefix_eq_some_iff]
    simp only [String.append_assoc]
  have hend : splitOnce ']' (host ++ "]" ++ (":" ++ text)) = some (host, ":" ++ text) := by
    refine splitOnce_eq_some_iff.mpr ⟨notMem_of_isIpv6 hhost (.inr (.inl rfl)), ?_⟩
    rw [String.toList_append, String.toList_append, List.append_assoc]
    rfl
  have hscope : isScopedIpv6 host = true := by
    unfold isScopedIpv6
    rw [splitOnce_eq_none (notMem_of_isIpv6 hhost (.inr (.inr rfl)))]
    exact hhost
  unfold parseSocketAddr
  rw [hstart]
  dsimp only
  rw [hend, Option.bind_some]
  dsimp only
  rw [hscope, if_pos rfl, stripPrefix_eq_some_iff.mpr rfl, Option.bind_some, hport.readPort,
    Option.map_some]

theorem splitHostPort_bracketed (hhost : ']' ∉ host.toList) (hport : PortText text port) :
    splitHostPort ("[" ++ host ++ "]" ++ ":" ++ text) = (host, port) := by
  have hcut : Delimited.cut ']' (host.toList ++ ']' :: ':' :: text.toList)
      = some (host.toList, ':' :: text.toList) :=
    Delimited.cut_eq_some_iff.mpr ⟨hhost, rfl⟩
  unfold splitHostPort
  rw [toList_address, toList_bracketed, List.cons_append, List.append_assoc]
  simp only [List.singleton_append, hcut, String.ofList_toList]
  rw [hport.getD]

/-- The first colon of an IPv6 address leaves another in front of the port. -/
theorem parseSocketAddr_bare (hhost : IpLiteral.isIpv6 host.toList = true)
    (hport : PortText text port) : parseSocketAddr (host ++ ":" ++ text) = none := by
  have hbracket : '[' ∉ (host ++ ":" ++ text).toList := by
    rw [toList_address]
    simp [notMem_of_isIpv6 hhost (c := '[') (.inl rfl), hport.notMem (c := '[') rfl]
  obtain ⟨front, back, hsplit, hfree⟩ :=
    List.eq_append_cons_of_mem (IpLiteral.mem_of_isIpv6 hhost).2
  have honce : splitOnce ':' (host ++ ":" ++ text)
      = some (.ofList front, .ofList back ++ ":" ++ text) := by
    refine splitOnce_eq_some_iff.mpr ⟨by rwa [String.toList_ofList], ?_⟩
    rw [toList_address, toList_address, hsplit, String.toList_ofList, String.toList_ofList,
      List.append_assoc]
    rfl
  have hdigits : readPort (.ofList back ++ ":" ++ text) = none := by
    unfold readPort
    rw [if_neg]
    intro hall
    have hcolon : ':' ∈ (.ofList back ++ ":" ++ text : String).toList := by
      rw [toList_address]
      exact List.mem_append_right _ List.mem_cons_self
    exact absurd (List.all_eq_true.mp hall _ hcolon) (by decide)
  unfold parseSocketAddr
  rw [stripPrefix_bracket hbracket, honce]
  dsimp only [Option.bind_some]
  rw [hdigits, Option.map_none, ite_self]

theorem toSocketAddrs_bare (hhost : IpLiteral.isIpv6 host.toList = true)
    (hport : PortText text port) : toSocketAddrs (host ++ ":" ++ text) = some (host, port) := by
  unfold toSocketAddrs
  rw [parseSocketAddr_bare hhost hport]
  dsimp only
  rw [rsplitOnce_address (hport.notMem rfl), Option.bind_some]
  dsimp only
  rw [hport.value, Option.map_some]

variable {Name : Type} (tryFrom : String → Option Name)

/-- What `server_name` answers when it passes `host` on. -/
def certified (host : String) : Except GearmanError Name :=
  (tryFrom host).elim (.error (.invalidServerName host)) .ok

theorem serverName_unbracketed (hhost : '[' ∉ host.toList) (hport : PortText text port) :
    serverName tryFrom (host ++ ":" ++ text) = certified tryFrom host := by
  unfold serverName
  rw [rsplitOnce_address (hport.notMem rfl), Option.map_some, Option.getD_some]
  dsimp only
  rw [stripPrefix_bracket hhost, Option.bind_none, Option.getD_none]
  unfold certified
  cases tryFrom host <;> rfl

theorem serverName_bracketed (hport : PortText text port) :
    serverName tryFrom ("[" ++ host ++ "]" ++ ":" ++ text) = certified tryFrom host := by
  unfold serverName
  rw [rsplitOnce_address (hport.notMem rfl), Option.map_some, Option.getD_some]
  dsimp only
  rw [stripPrefix_eq_some_iff.mpr (String.append_assoc ..), Option.bind_some, stripSuffix_append,
    Option.getD_some]
  unfold certified
  cases tryFrom host <;> rfl

end Readings

/-! ## Agreement -/

/-- **One server, one host and port.** An address is dialled at the host and port it is
written with, and its certificate is checked against that host. The ring hashes the same
host and port unless the host is an IPv6 address without brackets, which it takes
together with the port for a host at the default port. -/
theorem address_agrees {Name : Type} (tryFrom : String → Option Name)
    {written host text : String} {port : UInt16} (hwritten : Written written host)
    (hport : PortText text port) :
    toSocketAddrs (written ++ ":" ++ text) = some (host, port) ∧
      serverName tryFrom (written ++ ":" ++ text) = certified tryFrom host ∧
      splitHostPort (written ++ ":" ++ text)
        = if IpLiteral.isIpv6 written.toList then (written ++ ":" ++ text, defaultPort)
          else (host, port) := by
  have plain {host : String} (hhost : Plain host) :
      toSocketAddrs (host ++ ":" ++ text) = some (host, port) ∧
        serverName tryFrom (host ++ ":" ++ text) = certified tryFrom host ∧
        splitHostPort (host ++ ":" ++ text)
          = if IpLiteral.isIpv6 host.toList then (host ++ ":" ++ text, defaultPort)
            else (host, port) := by
    refine ⟨toSocketAddrs_plain hhost hport, serverName_unbracketed _ hhost.bracketFree hport, ?_⟩
    rw [splitHostPort_unbracketed hhost.bracketFree hport, if_neg hhost.colonFree,
      hhost.not_isIpv6]
    rfl
  cases hwritten with
  | name h => exact plain h.plain
  | ipv4 h => exact plain (plain_of_isIpv4 h)
  | bracketed h =>
    refine ⟨?_, serverName_bracketed _ hport, ?_⟩
    · unfold toSocketAddrs
      rw [parseSocketAddr_bracketed h hport]
    · rw [splitHostPort_bracketed (notMem_of_isIpv6 h (.inr (.inl rfl))) hport,
        isIpv6_bracketed]
      rfl
  | bare h =>
    have hbracket := notMem_of_isIpv6 h (.inl rfl)
    refine ⟨toSocketAddrs_bare h hport, serverName_unbracketed _ hbracket hport, ?_⟩
    rw [splitHostPort_unbracketed hbracket hport, if_pos (IpLiteral.mem_of_isIpv6 h).2, h]
    rfl

theorem address_agrees_bracketed :
    toSocketAddrs ("[" ++ "::1" ++ "]" ++ ":" ++ "4731") = some ("::1", 4731) ∧
      serverName some ("[" ++ "::1" ++ "]" ++ ":" ++ "4731") = certified some "::1" ∧
      splitHostPort ("[" ++ "::1" ++ "]" ++ ":" ++ "4731")
        = if IpLiteral.isIpv6 ("[" ++ "::1" ++ "]").toList
          then ("[" ++ "::1" ++ "]" ++ ":" ++ "4731", defaultPort) else ("::1", 4731) :=
  address_agrees some (.bracketed (by decide)) ⟨by decide, by decide, by decide⟩

/-- Without brackets the ring hashes another host and port than the ones dialled. -/
theorem address_disagrees_bare :
    IpLiteral.isIpv6 "::1".toList = true ∧ PortText "4731" 4731 ∧
      toSocketAddrs "::1:4731" = some ("::1", 4731) ∧
      splitHostPort "::1:4731" = ("::1:4731", 4730) :=
  ⟨by decide, ⟨by decide, by decide, by decide⟩, by decide, by decide +kernel⟩

end Gearman
