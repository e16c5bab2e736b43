import WaitLocalAgent.Model.NetSecurity

/-! # The policy on origins and addresses

What a validated origin says about the URL it was validated from, and which addresses pass. -/

namespace WaitLocalAgent.NetSecurity

open Foundation

@[simp] theorem toList_rstripDots (s : String) :
    (rstripDots s).toList = s.toList.rdropWhile (· == '.') := by
  simp [rstripDots]

theorem rstripDots_rstripDots (s : String) : rstripDots (rstripDots s) = rstripDots s := by
  simp [rstripDots, List.rdropWhile_idempotent]

theorem SameName.symm {a b : String} (h : SameName a b) : SameName b a := Eq.symm h

theorem SameName.trans {a b c : String} (hab : SameName a b) (hbc : SameName b c) :
    SameName a c :=
  Eq.trans hab hbc

theorem sameName_rstripDots (s : String) : SameName (rstripDots s) s := by
  simp [SameName, rstripDots_rstripDots]

section Fold

variable (lib : Library)

/-- Case folding keeps every character of the text. -/
def Folded (s : String) : Prop := ∀ c ∈ s.toList, foldChar lib.foldWide c = [c]

theorem toLower_ascii : ∀ n < 128, (Char.ofNat n).toLower.toNat < 128 ∧
    (Char.ofNat n).toLower.toLower = (Char.ofNat n).toLower := by
  decide

theorem foldChar_idem {c d : Char} (hd : d ∈ foldChar lib.foldWide c) :
    foldChar lib.foldWide d = [d] := by
  by_cases hc : c.toNat < 128
  · rw [foldChar, if_pos hc, List.mem_singleton] at hd
    subst hd
    obtain ⟨hlt, hidem⟩ := toLower_ascii c.toNat hc
    rw [Char.ofNat_toNat] at hlt hidem
    rw [foldChar, if_pos hlt, hidem]
  · rw [foldChar, if_neg hc] at hd
    exact lib.foldWide_idem c (Nat.le_of_not_lt hc) d hd

variable {lib}

theorem folded_casefold (s : String) : Folded lib (lib.casefold s) := by
  intro d hd
  rw [Library.casefold, String.toList_ofList, List.mem_flatMap] at hd
  obtain ⟨c, -, hd⟩ := hd
  exact foldChar_idem lib hd

theorem Folded.rstripDots {s : String} (h : Folded lib s) : Folded lib (rstripDots s) := by
  intro c hc
  rw [toList_rstripDots] at hc
  exact h c ((List.rdropWhile_prefix (· == '.') s.toList).subset hc)

theorem Folded.casefold_eq {s : String} (h : Folded lib s) : lib.casefold s = s := by
  have hchars : s.toList.flatMap (foldChar lib.foldWide) = s.toList.flatMap fun c => [c] :=
    List.flatMap_congr h
  rw [Library.casefold, hchars]
  simp

theorem foldName_foldName (s : String) : lib.foldName (lib.foldName s) = lib.foldName s := by
  have hfolded : Folded lib (lib.foldName s) := (folded_casefold s).rstripDots
  rw [Library.foldName, hfolded.casefold_eq, Library.foldName, rstripDots_rstripDots]

end Fold

def Ipv6Network.Leads (network : Ipv6Network) (value : BitVec 128) : Prop :=
  ∀ i < network.prefixLength, value.getMsbD i = network.networkAddress.getMsbD i

theorem Ipv6Network.contains_iff {network : Ipv6Network}
    (hlength : network.prefixLength ≤ 128)
    (hhost : ∀ i, network.prefixLength ≤ i → network.networkAddress.getMsbD i = false)
    (value : BitVec 128) : network.contains value = true ↔ network.Leads value := by
  have hbit : ∀ i, (value &&& (BitVec.allOnes 128 <<< (128 - network.prefixLength))).getMsbD i =
      (value.getMsbD i && decide (i < network.prefixLength)) := by
    intro i
    rw [BitVec.getMsbD_and, BitVec.getMsbD_shiftLeft, BitVec.getMsbD_allOnes]
    congr 2
    rw [eq_iff_iff]
    omega
  rw [Ipv6Network.contains, beq_iff_eq]
  constructor
  · intro h i hi
    rw [← h, hbit, decide_eq_true hi, Bool.and_true]
  · intro h
    refine BitVec.eq_of_getMsbD_eq fun i _ => ?_
    rw [hbit]
    by_cases hi : i < network.prefixLength
    · rw [decide_eq_true hi, Bool.and_true, h i hi]
    · rw [decide_eq_false hi, Bool.and_false, hhost i (Nat.le_of_not_lt hi)]

/-- An IPv4-mapped address stands for the IPv4 address in it. -/
def Address.unwrapped (ip : Address) : Address :=
  match ip.ipv4Mapped with
  | some mapped => .v4 mapped
  | none => ip

def Metadata : Address → Prop
  | .v4 value => value = 0xA9FEA9FE#32 ∨ value = 0xA83F8110#32
  | .v6 value _ => value = 0xfd00_0ec2_0000_0000_0000_0000_0000_0254#128

/-- The address is in a NAT64, 6to4 or Teredo network. -/
def Tunnelled : Address → Prop
  | .v4 _ => False
  | .v6 value _ => ∃ network ∈ nat64Networks ++ specialIpv6Networks, network.Leads value

/-- The address, unwrapped, is one that the policy lets requests go to. -/
structure Routable (lib : Library) (ip : Address) : Prop where
  isGlobal : lib.isGlobal ip.unwrapped = true
  not_isMulticast : lib.isMulticast ip.unwrapped = false
  not_isReserved : lib.isReserved ip.unwrapped = false
  not_metadata : ¬ Metadata ip.unwrapped
  not_tunnelled : ¬ Tunnelled ip.unwrapped

theorem inSpecialNetwork_iff (ip : Address) : inSpecialNetwork ip = true ↔ Tunnelled ip := by
  have haligned : ∀ network ∈ nat64Networks ++ specialIpv6Networks, network.prefixLength ≤ 128 ∧
      ∀ i < 128, network.prefixLength ≤ i → network.networkAddress.getMsbD i = false := by
    decide
  have hcontains : ∀ network ∈ nat64Networks ++ specialIpv6Networks, ∀ value,
      (network.contains value = true ↔ network.Leads value) := by
    intro network hmem value
    obtain ⟨hlength, hhost⟩ := haligned network hmem
    refine Ipv6Network.contains_iff hlength (fun i hi => ?_) value
    by_cases hlt : i < 128
    · exact hhost i hlt hi
    · exact BitVec.getMsbD_of_ge _ i (Nat.le_of_not_lt hlt)
  cases ip with
  | v4 value => simp [inSpecialNetwork, Tunnelled]
  | v6 value scopeId =>
      rw [inSpecialNetwork, List.any_eq_true, Tunnelled]
      constructor
      · rintro ⟨network, hmem, h⟩
        exact ⟨network, hmem, (hcontains network hmem value).mp h⟩
      · rintro ⟨network, hmem, h⟩
        exact ⟨network, hmem, (hcontains network hmem value).mpr h⟩

variable {lib : Library}

/-- The metadata address with a scope is not in the table of the code, but it is not global. -/
theorem mem_metadataAddresses_iff {ip : Address} (hglobal : lib.isGlobal ip = true) :
    ip ∈ metadataAddresses ↔ Metadata ip := by
  cases ip with
  | v4 value => simp [metadataAddresses, Metadata]
  | v6 value scopeId =>
      have hvalue : value ≠ 0xfd00_0ec2_0000_0000_0000_0000_0000_0254#128 := by
        rintro rfl
        rw [lib.not_isGlobal_of_uniqueLocal _ scopeId (by decide)] at hglobal
        cases hglobal
      simp [metadataAddresses, Metadata, hvalue]

theorem isGloballyRoutableUnmapped_iff {ip : Address} :
    isGloballyRoutableUnmapped lib ip = true ↔
      lib.isGlobal ip = true ∧ lib.isMulticast ip = false ∧ lib.isReserved ip = false ∧
        ¬ Metadata ip ∧ ¬ Tunnelled ip := by
  rw [isGloballyRoutableUnmapped]
  split
  · rename_i hmetadata
    constructor
    · intro h
      cases h
    · rintro ⟨hglobal, -, -, hnot, -⟩
      exact absurd ((mem_metadataAddresses_iff hglobal).mp hmetadata) hnot
  · rename_i hmetadata
    split
    · rename_i htunnelled
      constructor
      · intro h
        cases h
      · rintro ⟨-, -, -, -, hnot⟩
        exact absurd ((inSpecialNetwork_iff ip).mp htunnelled) hnot
    · rename_i htunnelled
      simp only [Bool.and_eq_true, Bool.not_eq_true']
      constructor
      · rintro ⟨⟨hglobal, hmulticast⟩, hreserved⟩
        exact ⟨hglobal, hmulticast, hreserved,
          mt (mem_metadataAddresses_iff hglobal).mpr hmetadata,
          mt (inSpecialNetwork_iff ip).mpr htunnelled⟩
      · rintro ⟨hglobal, hmulticast, hreserved, -, -⟩
        exact ⟨⟨hglobal, hmulticast⟩, hreserved⟩

theorem isGloballyRoutable_iff {ip : Address} :
    isGloballyRoutable lib ip = true ↔ Routable lib ip := by
  have hunwrapped : isGloballyRoutable lib ip = isGloballyRoutableUnmapped lib ip.unwrapped := by
    rw [isGloballyRoutable, Address.unwrapped]
    cases ip.ipv4Mapped with
    | some mapped => rfl
    | none => rfl
  rw [hunwrapped, isGloballyRoutableUnmapped_iff]
  constructor
  · rintro ⟨hglobal, hmulticast, hreserved, hmetadata, htunnel⟩
    exact ⟨hglobal, hmulticast, hreserved, hmetadata, htunnel⟩
  · intro h
    exact ⟨h.isGlobal, h.not_isMulticast, h.not_isReserved, h.not_metadata, h.not_tunnelled⟩

/-- The host of the URL, case-folded and without trailing dots, is `name`. -/
def HostFoldsTo (lib : Library) (url : Url) (name : String) : Prop :=
  ∃ host, lib.decodeHost url.rawHost = some host ∧ lib.foldName host = name

/-- The host of the URL is on the list, up to case folding and trailing dots. -/
def Allowlisted (lib : Library) (allowedHosts : List String) (url : Url) : Prop :=
  ∃ entry ∈ allowedHosts, Text.strip entry ≠ "" ∧
    HostFoldsTo lib url (lib.foldName (Text.strip entry))

def IsLoopbackHost (lib : Library) (url : Url) : Prop :=
  ∃ name ∈ loopbackHosts, HostFoldsTo lib url name

/-- Case folding leaves the host of the URL as it is, up to the case of ASCII letters. -/
def KeptByFolding (lib : Library) (url : Url) : Prop :=
  ∀ host, lib.decodeHost url.rawHost = some host → SameName (lib.casefold host) host

theorem HostFoldsTo.unique {url : Url} {a b : String}
    (ha : HostFoldsTo lib url a) (hb : HostFoldsTo lib url b) : a = b := by
  obtain ⟨host, hhost, rfl⟩ := ha
  obtain ⟨host', hhost', rfl⟩ := hb
  rw [hhost] at hhost'
  rw [Option.some.inj hhost']

theorem orRaise_eq_ok {α : Type} {error : Failure} {x : Option α} {a : α} :
    orRaise error x = .ok a ↔ x = some a := by
  cases x with
  | none => simp [orRaise]
  | some b => simp [orRaise]

theorem host_eq_ok {url : Url} {host : String} :
    lib.host url = .ok host ↔ lib.decodeHost url.rawHost = some host := orRaise_eq_ok

theorem copyWith_eq_ok {url copied : Url} {host : String} :
    lib.copyWith url host = .ok copied ↔
      ∃ rawHost, lib.encodeHost host = some rawHost ∧ { url with rawHost } = copied := by
  rw [Library.copyWith, orRaise_eq_ok, Option.map_eq_some_iff]

theorem parse_of_parseOrigin {candidate : String} {parsed : Url}
    (h : parseOrigin lib candidate = .ok parsed) : lib.parse candidate = some parsed := by
  simp only [parseOrigin, bind_eq_ok, pure_eq_ok] at h
  obtain ⟨_, -, parsed', hparse, _, -, _, -, _, -, _, -, rfl⟩ := h
  exact orRaise_eq_ok.mp hparse

theorem allowLoopback_of_validateOperatorUrl {url : String} {parsed : Url}
    {allowLoopback : Bool} {name : String} (hparse : lib.parse (Text.strip url) = some parsed)
    (h : validateOperatorUrl lib url false allowLoopback = .ok ())
    (hfolds : HostFoldsTo lib parsed name) (hname : name ∈ loopbackHosts) :
    allowLoopback = true := by
  simp only [validateOperatorUrl, bind_eq_ok, raiseIf_eq_ok] at h
  obtain ⟨parsed', hparsed', host, hhost, _, hloopback, -⟩ := h
  obtain rfl := Option.some.inj ((parse_of_parseOrigin hparsed').symm.trans hparse)
  obtain rfl := hfolds.unique ⟨host, host_eq_ok.mp hhost, rfl⟩
  simpa [hname] using hloopback

/-- What the validation of an origin says: the URL is the parsed one, copied with its folded host,
which is on the list and a loopback host only if those are allowed. -/
structure Admitted (lib : Library) (transport : PinnedIpTransport) (url validated : Url) :
    Prop where
  allowlisted : Allowlisted lib transport.allowedHosts url
  loopback : IsLoopbackHost lib url → transport.allowLoopback = true
  copied : ∃ name rawHost, HostFoldsTo lib url name ∧ lib.encodeHost name = some rawHost ∧
    validated = { url with rawHost }
  parsed : ∃ name, lib.encodeHost name = some url.rawHost

theorem admitted_of_validateProviderOrigin {transport : PinnedIpTransport}
    {url validated : Url}
    (h : validateProviderOrigin lib (lib.text url) transport.allowedHosts
      transport.allowLoopback = .ok validated) : Admitted lib transport url validated := by
  simp only [validateProviderOrigin, bind_eq_ok, raiseIf_eq_ok] at h
  obtain ⟨parsed, hparsed, host, hhost, _, hallowed, _, hoperator, hcopy⟩ := h
  have hparse := parse_of_parseOrigin hparsed
  obtain rfl := lib.parse_text url parsed hparse
  have hfolds : HostFoldsTo lib parsed (lib.foldName host) := ⟨host, host_eq_ok.mp hhost, rfl⟩
  obtain ⟨rawHost, hraw, rfl⟩ := copyWith_eq_ok.mp hcopy
  refine ⟨?_, ?_, ⟨_, rawHost, hfolds, hraw, rfl⟩, lib.parse_rawHost _ _ hparse⟩
  · rw [not_not, normaliseAllowedHosts, List.mem_map] at hallowed
    obtain ⟨entry, hentry, heq⟩ := hallowed
    rw [List.mem_filter, bne_iff_ne] at hentry
    refine ⟨entry, hentry.1, hentry.2, ?_⟩
    rwa [heq]
  · rintro ⟨name, hname, hloopback⟩
    refine allowLoopback_of_validateOperatorUrl ?_ hoperator hloopback hname
    rwa [Text.strip_strip]

theorem Admitted.exists_copied {transport : PinnedIpTransport} {url validated : Url}
    (h : Admitted lib transport url validated) : ∃ urlHost, Copied lib.foldWide lib.encodeHost
      lib.decodeHost url.rawHost urlHost (lib.foldName urlHost) validated.rawHost := by
  obtain ⟨name, rawHost, ⟨urlHost, hurl, rfl⟩, hraw, rfl⟩ := h.copied
  exact ⟨urlHost, h.parsed, hurl, rfl, hraw⟩

theorem mem_foldName_of_ace {s : String} (h : acePrefix <:+: s.toList) :
    'x' ∈ (lib.foldName s).toList := by
  have hx : 'x' ∈ s.toList := h.subset (by decide)
  have hfold : 'x' ∈ (lib.casefold s).toList := by
    rw [Library.casefold, String.toList_ofList, List.mem_flatMap]
    refine ⟨'x', hx, ?_⟩
    rw [foldChar, if_pos (by decide)]
    exact List.mem_singleton.mpr (by decide)
  rw [Library.foldName, toList_rstripDots]
  rw [← @List.rdropWhile_append_rtakeWhile _ (· == '.') (lib.casefold s).toList] at hfold
  rcases List.mem_append.mp hfold with hkept | hdropped
  · exact hkept
  · exact absurd (List.mem_rtakeWhile_imp hdropped) (by decide)

/-- A validated host that is a loopback host is the folded one of the URL. -/
theorem Admitted.isLoopbackHost {transport : PinnedIpTransport}
    {url validated : Url} (h : Admitted lib transport url validated) {host : String}
    (hhost : lib.decodeHost validated.rawHost = some host)
    (hloopback : lib.foldName host ∈ loopbackHosts) : IsLoopbackHost lib url := by
  obtain ⟨urlHost, hcopied⟩ := h.exists_copied
  have hsame : host = lib.foldName urlHost → IsLoopbackHost lib url := by
    rintro rfl
    rw [foldName_foldName] at hloopback
    exact ⟨_, hloopback, urlHost, hcopied.host, rfl⟩
  by_cases hace : acePrefix <+: validated.rawHost.toList
  · rw [lib.decodeHost_encodeHost _ _ _ _ hcopied hace] at hhost
    exact hsame (Option.some.inj hhost).symm
  · rw [lib.decodeHost_plain _ hace] at hhost
    obtain rfl := Option.some.inj hhost
    rcases lib.encodeHost_ace _ _ _ _ hcopied with heq | hlabel
    · exact hsame heq
    · have hnone : ∀ name ∈ loopbackHosts, 'x' ∉ name.toList := by decide
      exact absurd (mem_foldName_of_ace hlabel) (hnone _ hloopback)

/-- The validated host is the request's exactly if case folding keeps that one. -/
theorem Admitted.sameName_iff {transport : PinnedIpTransport}
    {url validated : Url} (h : Admitted lib transport url validated) :
    SameName validated.rawHost url.rawHost ↔ KeptByFolding lib url := by
  obtain ⟨urlHost, hcopied⟩ := h.exists_copied
  have hsame := lib.encodeHost_sameName _ _ _ _ hcopied
  have hfold : SameName (lib.foldName urlHost) (lib.casefold urlHost) :=
    sameName_rstripDots (lib.casefold urlHost)
  constructor
  · intro hname host hhost
    obtain rfl := Option.some.inj (hhost.symm.trans hcopied.host)
    exact hfold.symm.trans (hsame.mp hname)
  · intro hkept
    exact hsame.mpr (hfold.trans (hkept urlHost hcopied.host))

def IsAddressResult (lib : Library) (result : ResolverResult) (ip : Address) : Prop :=
  ∃ family b c d item items rest,
    result = .family family :: b :: c :: d :: .tuple (item :: items) :: rest ∧
      lib.ipAddress item = some ip ∧
      match ip with
      | .v4 _ => family = .inet
      | .v6 _ _ => family = .inet6

theorem isAddressResult_of_eq_ok {result : ResolverResult} {ip : Address}
    (h : addressFromResult lib result = .ok ip) : IsAddressResult lib result ip := by
  rw [addressFromResult.eq_def] at h
  split at h
  · rename_i family b c d sockaddr rest
    simp only [bind_eq_ok, raiseIf_eq_ok] at h
    obtain ⟨_, hfamily, item, hitem, address, haddress, hmatch⟩ := h
    rw [orRaise_eq_ok] at hitem haddress
    obtain ⟨items, rfl⟩ : ∃ items, sockaddr = .tuple (item :: items) := by
      cases sockaddr with
      | tuple items =>
          obtain ⟨rest, rfl⟩ := List.head?_eq_some_iff.mp hitem
          exact ⟨rest, rfl⟩
      | family f => cases hitem
      | other => cases hitem
    refine ⟨family, b, c, d, item, items, rest, rfl, ?_⟩
    cases family with
    | other => exact absurd hfamily (by simp)
    | inet =>
        cases address with
        | v4 value =>
            obtain rfl : Address.v4 value = ip := by simpa using hmatch
            exact ⟨haddress, rfl⟩
        | v6 value scopeId => cases hmatch
    | inet6 =>
        cases address with
        | v4 value => cases hmatch
        | v6 value scopeId =>
            obtain rfl : Address.v6 value scopeId = ip := by simpa using hmatch
            exact ⟨haddress, rfl⟩
  · cases h

def Permitted (lib : Library) (transport : PinnedIpTransport) (url : Url) (ip : Address) : Prop :=
  Routable lib ip ∨
    transport.allowLoopback = true ∧ IsLoopbackHost lib url ∧ lib.isLoopback ip = true

/-- Every result of an accepted answer is an address that passes the check. -/
theorem validateResults_spec {allowLoopback isLoopbackHost : Bool}
    {results : List ResolverResult} {addresses : List Address}
    (h : validateResults lib allowLoopback isLoopbackHost results = .ok addresses) :
    (∀ result ∈ results, ∃ ip ∈ addresses, IsAddressResult lib result ip) ∧
      (∀ ip ∈ addresses, ∃ result ∈ results, IsAddressResult lib result ip) ∧
      ∀ ip ∈ addresses,
        isLoopbackHost = true ∧ allowLoopback = true ∧ lib.isLoopback ip = true ∨
          Routable lib ip := by
  simp only [validateResults, bind_eq_ok, pure_eq_ok] at h
  obtain ⟨_, -, addresses', hmap, _, hcheck, rfl⟩ := h
  refine ⟨?_, ?_, ?_⟩
  · intro result hresult
    obtain ⟨ip, hip, heq⟩ := exists_mem_of_mapM hmap result hresult
    exact ⟨ip, hip, isAddressResult_of_eq_ok heq⟩
  · intro ip hip
    obtain ⟨result, hresult, heq⟩ := exists_of_mem_mapM hmap ip hip
    exact ⟨result, hresult, isAddressResult_of_eq_ok heq⟩
  · intro ip hip
    have hone := forM_eq_ok.mp hcheck ip hip
    rw [checkAddress] at hone
    split at hone
    · rename_i hloopback
      exact .inl ⟨hloopback, by simpa using hone⟩
    · exact .inr (isGloballyRoutable_iff.mp (by simpa using hone))

end WaitLocalAgent.NetSecurity
