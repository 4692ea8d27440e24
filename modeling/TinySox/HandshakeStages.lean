import TinySox.HandshakeTranscript

/-!
# The stages of the handshake as transformers of the transcript

Each stage, when it does not end the job, has received exactly one message of the protocol
and knows what was in it. What has to be shown about the early exits is left to the user
of the rule.
-/

namespace TinySox

open TinySox.Common

/-- The resolver as a function of the name and of the search flag. -/
structure Resolver where
  a6 : Bytes → Bool → Option (List (AddrRecord ipv6AddrLen))
  a4 : Bytes → Bool → Option (List (AddrRecord ipv4AddrLen))

/-- The world answers queries with this resolver. -/
def WorldResolves (dns : Resolver)
    (world : Transcript → (o : JobOp) → o.Answer → Prop) : Prop :=
  ∀ g name nosrch,
    (∀ ans, world g (.dnsResolveA6 name nosrch) ans → ans = dns.a6 name nosrch) ∧
    (∀ ans, world g (.dnsResolveA4 name nosrch) ans → ans = dns.a4 name nosrch)

/-- The address of a record. -/
def AddrRecord.address {len : ℕ} (r : AddrRecord len) : IPAddress := .ofRaw r.val

/-- The addresses that a destination stands for, in the order in which they are tried. A name
counts up to its first NUL byte. It may be the text form of an address; otherwise it stands
for all of its IPv6 addresses followed by all of its IPv4 addresses. -/
def Destination.candidates (cfg : Config) (inet : InetPton) (dns : Resolver) :
    Destination → List IPAddress
  | .v4 raw => [raw.address]
  | .v6 raw => [raw.address]
  | .domain name =>
    let text := cString name.val
    let nosrch := !cfg.udnsSearchDomainIsSet
    match inet.v4 text, inet.v6 text with
    | some raw, _ => [.ofRaw raw]
    | none, some raw => [.ofRaw raw]
    | none, none =>
      ((dns.a6 text nosrch).getD []).map AddrRecord.address ++
        ((dns.a4 text nosrch).getD []).map AddrRecord.address

/-- Every record makes a valid address. -/
theorem AddrRecord.address_isValid {len : ℕ} (r : AddrRecord len)
    (hlen : len = ipv6AddrLen ∨ len = ipv4AddrLen) : r.address.isValid = true :=
  IPAddress.ofRaw_isValid (by rw [r.property]; exact hlen)

/-- Both kinds of raw addresses are valid. -/
theorem InetPton.ofRaw_isValid {inet : InetPton} {text raw : Bytes}
    (h : inet.v4 text = some raw ∨ inet.v6 text = some raw) :
    (IPAddress.ofRaw raw).isValid = true := by
  apply IPAddress.ofRaw_isValid
  rcases h with h4 | h6
  · exact .inr (inet.length_v4 text raw h4)
  · exact .inl (inet.length_v6 text raw h6)

namespace Handshake

/-- No record of an answer is dropped. -/
theorem validAddresses_eq {len : ℕ} (hlen : len = ipv6AddrLen ∨ len = ipv4AddrLen)
    (answer : Option (List (AddrRecord len))) :
    validAddresses answer = (answer.getD []).map AddrRecord.address := by
  apply List.filter_eq_self.mpr
  intro a ha
  obtain ⟨r, -, rfl⟩ := List.mem_map.mp ha
  exact r.address_isValid hlen

/-- The loop finds the first acceptable method. -/
theorem firstSupported_eq_some {cfg : Config} {methods : Bytes} {m : UInt8} :
    firstSupported (cfg.getUser []).isSome methods = some m ↔ FirstAcceptable cfg methods m := by
  have hacceptable : ∀ b : UInt8, ((((cfg.getUser []).isSome && b = 0x00) || b = 0x02) = true) ↔
      Acceptable cfg b := by
    intro b
    simp only [Bool.or_eq_true, Bool.and_eq_true, decide_eq_true_eq, Acceptable]
    tauto
  rw [firstSupported, List.find?_eq_some_iff_append, hacceptable, FirstAcceptable]
  refine and_congr_right fun _ => exists_congr fun before => exists_congr fun after => ?_
  refine and_congr_right fun _ => forall_congr' fun b => imp_congr_right fun _ => ?_
  rw [Bool.not_eq_true', ← Bool.not_eq_true, hacceptable]

/-- The decision on a login is whether the table has its name with its password. -/
theorem credentialsMatch_iff {cfg : Config} {username password : Bytes} :
    credentialsMatch cfg username password = true ↔
      ∃ user, cfg.getUser username = some user ∧ user.password = password := by
  unfold credentialsMatch
  cases cfg.getUser username with
  | none => simp
  | some user => simp

/-- No method is found if none is acceptable. -/
theorem firstSupported_eq_none {cfg : Config} {methods : Bytes}
    (hnone : firstSupported (cfg.getUser []).isSome methods = none) (m : UInt8) :
    ¬ FirstAcceptable cfg methods m := by
  intro h
  rw [firstSupported_eq_some.mpr h] at hnone
  contradiction

variable {A : Type} {mayDial : Transcript → IPEndpoint → Timeval → Prop}
  {world : Transcript → (o : JobOp) → o.Answer → Prop} {cfg : Config} {host : ByteOrder}
  {inet : InetPton} {dns : Resolver} {exits : JobResult → Transcript → Prop}
  {ends : A → Transcript → Prop} {g : Transcript} {state : State} {id : ℕ} {buff : Bytes}

/-- A field is read, or the job ends on a short transfer. -/
theorem wp_receive_field (hworld : WorldSound world) {len : ℕ} {ends : Bytes → Transcript → Prop}
    (hshort : ∀ g' s, g'.short = true → exits (.terminal s) g')
    (hfull : ∀ data, data.length = len → ends (storeAt buff 0 data) (g.receive data)) :
    (conversation mayDial world).wp exits ends (receive state id buff len) g :=
  wp_receive hworld (fun data hlen _ => hfull data hlen) fun _ _ _ s => hshort _ s rfl

/-- A byte is read, or the job ends on a short transfer. -/
theorem wp_receive_byte (hworld : WorldSound world) {ends : Bytes → Transcript → Prop}
    (hshort : ∀ g' s, g'.short = true → exits (.terminal s) g')
    (hfull : ∀ b, ends (storeAt buff 0 [b]) (g.receive [b])) :
    (conversation mayDial world).wp exits ends (receive state id buff 1) g := by
  refine wp_receive_field hworld hshort fun data hlen => ?_
  obtain ⟨b, rfl⟩ := List.length_eq_one_iff.mp hlen
  exact hfull b

/-- A string is read after its length, or the job ends on a short transfer. -/
theorem wp_receive_string (hworld : WorldSound world) {n : UInt8} {ends : Bytes → Transcript → Prop}
    (hshort : ∀ g' s, g'.short = true → exits (.terminal s) g')
    (hfull : ∀ string : ShortBytes, string.lengthByte = n →
      ends (storeAt buff 0 string.val) (g.receive string.val)) :
    (conversation mayDial world).wp exits ends (receive state id buff n.toNat) g := by
  refine wp_receive_field hworld hshort fun data hlen => ?_
  refine hfull (.ofAnnounced n data hlen) ?_
  rw [ShortBytes.lengthByte, ShortBytes.ofAnnounced, hlen, UInt8.ofNat_toNat]

/-- Method selection receives a greeting. It ends the job on a wrong version, on a greeting
without an acceptable method, and if the client cannot be told. -/
theorem wp_selectMethod (hworld : WorldSound world) {ends : UInt8 × Bytes → Transcript → Prop}
    (hshort : ∀ g' s, g'.short = true → exits (.terminal s) g')
    (hversion : ∀ v s, v ≠ 0x05 → exits (.terminal s) (g.receive [v]))
    (hnone : ∀ (methods : ShortBytes) g' s, (∀ m, ¬ FirstAcceptable cfg methods.val m) →
      (g.receive (greetingBytes methods)).Extends g' → exits (.terminal s) g')
    (hunsent : ∀ (methods : ShortBytes) m r s, FirstAcceptable cfg methods.val m → r ≠ 2 →
      exits (.terminal s) ((g.receive (greetingBytes methods)).reply [0x05, m] r))
    (hends : ∀ (methods : ShortBytes) m buff, FirstAcceptable cfg methods.val m →
      ends (m, buff) ((g.receive (greetingBytes methods)).reply [0x05, m] 2)) :
    (conversation mayDial world).wp exits ends (selectMethod cfg state id buff) g := by
  rw [selectMethod, Contract.wp_bind]
  refine wp_receive_byte hworld hshort fun v => ?_
  rw [Contract.wp_bind, byteAt_storeAt_front]
  refine wp_failUnless (fun hok => ?_) fun hbad s => hversion v s (of_decide_eq_false hbad)
  obtain rfl := of_decide_eq_true hok
  rw [Contract.wp_bind]
  refine wp_receive_byte hworld hshort fun n => ?_
  rw [byteAt_storeAt_front, Contract.wp_bind]
  refine wp_receive_string hworld hshort fun methods hn => ?_
  have hgreeting : ((g.receive [0x05]).receive [n]).receive methods.val =
      g.receive (greetingBytes methods) := by
    simp [Transcript.receive, greetingBytes, ShortBytes.encode, hn]
  have htake : (storeAt (storeAt (storeAt buff 0 [0x05]) 0 [n]) 0 methods.val).take n.toNat =
      methods.val := by
    rw [← hn, ShortBytes.toNat_lengthByte, take_storeAt_front]
  rw [hgreeting, htake]
  dsimp only
  cases hfirst : firstSupported (cfg.getUser []).isSome methods.val with
  | none =>
    dsimp only
    rw [Contract.wp_bind]
    refine wp_transferOut fun r _ => ?_
    rw [Contract.wp_bind]
    refine wp_transferIn fun t _ => wp_failWithDisclaim fun s => ?_
    refine hnone methods _ s (firstSupported_eq_none hfirst) ?_
    exact ⟨List.prefix_append _ _, List.prefix_append _ _, List.prefix_refl _⟩
  | some m =>
    have hm := firstSupported_eq_some.mp hfirst
    dsimp only
    rw [Contract.wp_bind]
    refine wp_transferOut fun r _ => ?_
    rw [Contract.wp_bind]
    refine wp_failUnless (fun hok => ?_) fun hbad s => ?_
    · obtain rfl := of_decide_eq_true hok
      exact hends methods m _ hm
    · exact hunsent methods m r s hm (of_decide_eq_false hbad)

/-- Login receives a login that the table knows. It answers any other login before it ends the
job, and it ends the job if the client cannot be told. -/
theorem wp_login (hworld : WorldSound world) {ends : Bytes → Transcript → Prop}
    (hshort : ∀ g' s, g'.short = true → exits (.terminal s) g')
    (hversion : ∀ v r s, v ≠ 0x01 → exits (.terminal s) ((g.receive [v]).reply [0x01, 0x01] r))
    (hrejected : ∀ (username password : ShortBytes) r s,
      credentialsMatch cfg username.val password.val = false →
      exits (.terminal s) ((g.receive (loginBytes username password)).reply [0x01, 0x01] r))
    (hunsent : ∀ (username password : ShortBytes) r s,
      credentialsMatch cfg username.val password.val = true → r ≠ 2 →
      exits (.terminal s) ((g.receive (loginBytes username password)).reply [0x01, 0x00] r))
    (hends : ∀ (username password : ShortBytes) buff,
      credentialsMatch cfg username.val password.val = true →
      ends buff ((g.receive (loginBytes username password)).reply [0x01, 0x00] 2)) :
    (conversation mayDial world).wp exits ends (login cfg state id buff) g := by
  rw [login, Contract.wp_bind]
  refine wp_receive_byte hworld hshort fun v => ?_
  rw [byteAt_storeAt_front]
  split_ifs with hv
  · exact wp_sendAuthFail fun r s => hversion v r s hv
  · obtain rfl := not_not.mp hv
    rw [Contract.wp_bind]
    refine wp_receive_byte hworld hshort fun n => ?_
    rw [byteAt_storeAt_front, Contract.wp_bind]
    refine wp_receive_string hworld hshort fun username hn => ?_
    rw [Contract.wp_bind]
    refine wp_receive_byte hworld hshort fun n' => ?_
    rw [byteAt_storeAt_front, Contract.wp_bind]
    refine wp_receive_string hworld hshort fun password hn' => ?_
    have hlogin : ((((g.receive [0x01]).receive [n]).receive username.val).receive [n']).receive
        password.val = g.receive (loginBytes username password) := by
      simp [Transcript.receive, loginBytes, ShortBytes.encode, hn, hn']
    rw [hlogin, ← hn, ← hn', ShortBytes.toNat_lengthByte, ShortBytes.toNat_lengthByte,
      take_storeAt_front, take_storeAt_front]
    dsimp only
    cases hmatch : credentialsMatch cfg username.val password.val with
    | true =>
      rw [if_pos rfl, Contract.wp_bind]
      refine wp_transferOut fun r _ => ?_
      rw [Contract.wp_bind]
      refine wp_failUnless (fun hok => ?_) fun hbad s => ?_
      · obtain rfl := of_decide_eq_true hok
        exact hends username password _ hmatch
      · exact hunsent username password r s hmatch (of_decide_eq_false hbad)
    | false =>
      rw [if_neg Bool.false_ne_true]
      exact wp_sendAuthFail fun r s => hrejected username password r s hmatch

/-- An operation that is neither a transfer nor a connection attempt leaves no trace. -/
theorem wp_silent {o : JobOp} {ends : o.Answer → Transcript → Prop}
    (hsilent : ∀ a, g.record o a = g) (hmay : (conversation mayDial world).may g o)
    (hends : ∀ a, world g o a → ends a g) :
    (conversation mayDial world).wp exits ends (Prog.perform o) g := by
  refine ⟨hmay, fun a ha => ?_⟩
  have hnext : (conversation mayDial world).next g o a = g := hsilent a
  rw [hnext]
  exact hends a ha

/-- Resolving yields all the addresses of the name, unless the resolver cannot be set up. -/
theorem wp_resolve (hdns : WorldResolves dns world) {dname : Bytes}
    {ends : List IPAddress → Transcript → Prop}
    (hexits : world g .dnsNew false ∨ world g .dnsOpen false → ∀ s, exits (.terminal s) g)
    (hends : ends (((dns.a6 (cString dname) (!cfg.udnsSearchDomainIsSet)).getD []).map
      AddrRecord.address ++ ((dns.a4 (cString dname) (!cfg.udnsSearchDomainIsSet)).getD []).map
        AddrRecord.address) g) :
    (conversation mayDial world).wp exits ends (resolve cfg state dname) g := by
  rw [resolve, Contract.wp_bind]
  refine wp_silent (fun _ => rfl) trivial fun created hcreated => ?_
  rw [Contract.wp_bind]
  refine wp_failUnless (fun _ => ?_) fun hfail => ?_
  · rw [Contract.wp_bind]
    refine wp_silent (fun _ => rfl) trivial fun opened hopen => ?_
    cases opened with
    | true =>
      rw [if_pos rfl, Contract.wp_bind]
      refine wp_silent (fun _ => rfl) trivial fun ans6 h6 => ?_
      rw [Contract.wp_bind]
      refine wp_silent (fun _ => rfl) trivial fun ans4 h4 => ?_
      obtain rfl := (hdns _ _ _).1 ans6 h6
      obtain rfl := (hdns _ _ _).2 ans4 h4
      rw [Contract.wp_bind]
      refine wp_silent (fun _ => rfl) trivial fun _ _ => ?_
      rw [Contract.wp_bind]
      refine wp_silent (fun _ => rfl) trivial fun _ _ => ?_
      rw [validAddresses_eq (.inl rfl), validAddresses_eq (.inr rfl)]
      exact hends
    | false =>
      rw [if_neg Bool.false_ne_true, Contract.wp_bind]
      exact wp_silent (fun _ => rfl) trivial fun _ _ => wp_failWithDisclaim (hexits (.inr hopen))
  · subst hfail
    exact hexits (.inl hcreated)

/-- A raw address is one of its length. -/
theorem wp_readRawAddress (hworld : WorldSound world) {len : ℕ}
    (hlen : len = ipv6AddrLen ∨ len = ipv4AddrLen) {ends : List IPAddress × Bytes → Transcript → Prop}
    (hshort : ∀ g' s, g'.short = true → exits (.terminal s) g')
    (hends : ∀ (raw : AddrRecord len) buff, ends ([raw.address], buff) (g.receive raw.val)) :
    (conversation mayDial world).wp exits ends (readRawAddress state id buff len) g := by
  rw [readRawAddress, Contract.wp_bind]
  refine wp_receive_field hworld hshort fun data hdata => ?_
  have htake : (storeAt buff 0 data).take len = data := by rw [← hdata, take_storeAt_front]
  have hvalid : (IPAddress.ofRaw data).isValid = true :=
    IPAddress.ofRaw_isValid (by rw [hdata]; exact hlen)
  rw [htake]
  dsimp only
  rw [hvalid, if_pos rfl]
  exact hends ⟨data, hdata⟩ _

/-- A name is read as an address, or resolved. -/
theorem wp_lookup (hdns : WorldResolves dns world) {name : ShortBytes}
    {ends : List IPAddress × Bytes → Transcript → Prop}
    (hexits : world g .dnsNew false ∨ world g .dnsOpen false → ∀ s, exits (.terminal s) g)
    (hends : ends ((Destination.domain name).candidates cfg inet dns, buff) g) :
    (conversation mayDial world).wp exits ends
      (if (IPAddress.ofString inet name.val).isValid then
        pure ([IPAddress.ofString inet name.val], buff)
      else do
        let destIPs ← resolve cfg state name.val
        pure (destIPs, buff)) g := by
  simp only [Destination.candidates] at hends
  rw [IPAddress.ofString_eq]
  cases h4 : inet.v4 (cString name.val) with
  | some raw =>
    rw [h4] at hends
    dsimp only
    rw [InetPton.ofRaw_isValid (.inl h4), if_pos rfl]
    exact hends
  | none =>
    cases h6 : inet.v6 (cString name.val) with
    | some raw =>
      rw [h4, h6] at hends
      dsimp only
      rw [InetPton.ofRaw_isValid (.inr h6), if_pos rfl]
      exact hends
    | none =>
      rw [h4, h6] at hends
      have hinvalid : IPAddress.invalid.isValid = false := rfl
      dsimp only
      rw [hinvalid, if_neg Bool.false_ne_true, Contract.wp_bind]
      exact wp_resolve hdns hexits hends

/-- A domain name stands for its candidates. -/
theorem wp_readDomainName (hworld : WorldSound world) (hdns : WorldResolves dns world)
    {ends : List IPAddress × Bytes → Transcript → Prop}
    (hexits : ∀ g' s, g.Extends g' → exits (.terminal s) g')
    (hshort : ∀ g' s, g'.short = true → exits (.terminal s) g')
    (hends : ∀ (name : ShortBytes) buff,
      ends ((Destination.domain name).candidates cfg inet dns, buff) (g.receive name.encode)) :
    (conversation mayDial world).wp exits ends (readDomainName cfg inet state id buff) g := by
  rw [readDomainName, Contract.wp_bind]
  refine wp_receive_byte hworld hshort fun n => ?_
  rw [byteAt_storeAt_front, Contract.wp_bind]
  refine wp_receive_string hworld hshort fun name hn => ?_
  have hname : (g.receive [n]).receive name.val = g.receive name.encode := by
    simp [Transcript.receive, ShortBytes.encode, hn]
  rw [hname, ← hn, ShortBytes.toNat_lengthByte, take_storeAt_front]
  refine wp_lookup hdns (fun _ s => hexits _ s ?_) (hends name _)
  exact ⟨List.prefix_append _ _, List.prefix_refl _, List.prefix_refl _⟩

/-- A destination stands for its candidates. -/
theorem wp_readDestination (hworld : WorldSound world) (hdns : WorldResolves dns world)
    {atyp : UInt8} {ends : List IPAddress × Bytes → Transcript → Prop}
    (hexits : ∀ g' s, g.Extends g' → exits (.terminal s) g')
    (hshort : ∀ g' s, g'.short = true → exits (.terminal s) g')
    (hends : ∀ (dest : Destination) data buff, dest.encode = atyp :: data →
      ends (dest.candidates cfg inet dns, buff) (g.receive data)) :
    (conversation mayDial world).wp exits ends (readDestination cfg inet state id atyp buff) g := by
  unfold readDestination
  split_ifs with h1 h4 h3
  · subst h1
    exact wp_readRawAddress hworld (.inr rfl) hshort fun raw buff => hends (.v4 raw) raw.val buff rfl
  · subst h4
    exact wp_readRawAddress hworld (.inl rfl) hshort fun raw buff => hends (.v6 raw) raw.val buff rfl
  · subst h3
    exact wp_readDomainName hworld hdns hexits hshort fun name buff =>
      hends (.domain name) name.encode buff rfl
  · exact wp_failWithDisclaim fun s =>
      hexits g s ⟨List.prefix_refl _, List.prefix_refl _, List.prefix_refl _⟩

/-- A stage that follows extends what has been received. -/
theorem extends_receive (g : Transcript) (data : Bytes) : g.Extends (g.receive data) :=
  ⟨List.prefix_append _ _, List.prefix_refl _, List.prefix_refl _⟩

/-- The request stage receives a request. -/
theorem wp_readRequest (hworld : WorldSound world) (hdns : WorldResolves dns world)
    {ends : Request × Bytes → Transcript → Prop}
    (hexits : ∀ g' s, g.Extends g' → exits (.terminal s) g')
    (hshort : ∀ g' s, g'.short = true → exits (.terminal s) g')
    (hends : ∀ cmd rsv (dest : Destination) port buff,
      ends (⟨cmd, dest.candidates cfg inet dns, port⟩, buff)
        (g.receive (requestBytes cmd rsv dest port))) :
    (conversation mayDial world).wp exits ends (readRequest cfg host inet state id buff) g := by
  rw [readRequest, Contract.wp_bind]
  refine wp_receive_byte hworld hshort fun v => ?_
  rw [Contract.wp_bind, byteAt_storeAt_front]
  refine wp_failUnless (fun hok => ?_) fun _ s => hexits _ s (extends_receive g _)
  obtain rfl := of_decide_eq_true hok
  rw [Contract.wp_bind]
  refine wp_receive_field hworld hshort fun data hlen => ?_
  obtain ⟨cmd, rsv, rfl⟩ := List.length_eq_two.mp hlen
  rw [byteAt_storeAt_front, Contract.wp_bind]
  refine wp_receive_byte hworld hshort fun atyp => ?_
  rw [byteAt_storeAt_front, Contract.wp_bind]
  have hlonger : ∀ g' : Transcript, (((g.receive [0x05]).receive [cmd, rsv]).receive [atyp]).Extends g' →
      g.Extends g' := by
    intro g' h
    refine ⟨List.IsPrefix.trans ?_ h.received, h.replies, h.dials⟩
    simp only [Transcript.receive, List.append_assoc]
    exact List.prefix_append _ _
  refine wp_readDestination hworld hdns (fun g' s h => hexits g' s (hlonger g' h)) hshort
    fun dest data buff hdest => ?_
  rw [Contract.wp_bind]
  refine wp_receive_field hworld hshort fun portData hport => ?_
  obtain ⟨b₀, b₁, rfl⟩ := List.length_eq_two.mp hport
  rw [byteAt_storeAt_front, byteAt_storeAt_second]
  have hrequest : ((((g.receive [0x05]).receive [cmd, rsv]).receive [atyp]).receive data).receive
      [b₀, b₁] = g.receive (requestBytes cmd rsv dest (host.ntohs (host.loadU16 b₀ b₁))) := by
    simp [Transcript.receive, requestBytes, hdest, ByteOrder.ntohs_loadU16]
  rw [hrequest]
  exact hends cmd rsv dest _ _

/-- A handler joins a state with its claims. -/
theorem wp_addHandlerWithClaim {target : ℕ} {ends : State → Transcript → Prop}
    (hends : ∀ s : State, s.handlerClaims.length = state.handlerClaims.length + 1 → ends s g) :
    (conversation mayDial world).wp exits ends (state.addHandlerWithClaim target) g := by
  rw [State.addHandlerWithClaim, Contract.wp_bind]
  refine wp_refresh (fun c ends hends => ⟨trivial, fun s _ => hends s⟩) fun entries hentries => ?_
  rw [Contract.wp_bind]
  refine wp_silent (fun _ => rfl) trivial fun ref _ => ?_
  rw [Contract.wp_bind]
  refine wp_silent (fun _ => rfl) trivial fun claimed _ => hends _ ?_
  rw [← hentries]
  simp [State.handlerClaims]

/-- Adopting the target is not part of the conversation. -/
theorem wp_adoptTarget {target : ℕ} {ends : Attempt → Transcript → Prop}
    (hexits : ∀ s, exits (.terminal s) g) (hends : ∀ attempt, ends attempt g) :
    (conversation mayDial world).wp exits ends (adoptTarget host target state) g := by
  rw [adoptTarget, Contract.wp_bind]
  refine wp_silent (fun _ => rfl) trivial fun handler _ => ?_
  cases handler with
  | none => exact wp_failWithDisclaim hexits
  | some fd =>
    dsimp only
    rw [Contract.wp_bind]
    refine wp_addHandlerWithClaim fun finalState _ => ?_
    rw [Contract.wp_bind]
    refine wp_silent (fun _ => rfl) trivial fun name _ => ?_
    cases name with
    | none => exact wp_failWithDisclaim hexits
    | some sa =>
      dsimp only
      rw [Contract.wp_bind]
      exact wp_failUnless (fun _ => hends _) fun _ => hexits

end Handshake

/-- The addresses were dialled in order, and no connection was made. -/
def FailedDials (port : UInt16) (ips : List IPAddress) (dials : List Dial) : Prop :=
  dials.map Dial.target = ips.map (IPEndpoint.mk · port) ∧ ∀ d ∈ dials, handlerError < d.answer

/-- The addresses were dialled in order, until a connection was made. -/
def DialledWithSuccess (port : UInt16) (ips : List IPAddress) (dials : List Dial) : Prop :=
  ∃ done ip rest failed last, ips = done ++ ip :: rest ∧ dials = failed ++ [last] ∧
    FailedDials port done failed ∧ last.target = ⟨ip, port⟩ ∧ last.answer ≤ handlerError

/-- The addresses were dialled in order, until a connection was made or no address was left. -/
def Dialled (port : UInt16) (ips : List IPAddress) (dials : List Dial) : Prop :=
  FailedDials port ips dials ∨ DialledWithSuccess port ips dials

/-- A failed attempt comes before the others. -/
theorem FailedDials.cons {port : UInt16} {ip : IPAddress} {ips : List IPAddress} {d : Dial}
    {dials : List Dial} (htarget : d.target = ⟨ip, port⟩) (hfailed : handlerError < d.answer)
    (h : FailedDials port ips dials) : FailedDials port (ip :: ips) (d :: dials) := by
  refine ⟨?_, fun e he => ?_⟩
  · rw [List.map_cons, List.map_cons, htarget, h.1]
  · rcases List.mem_cons.mp he with rfl | hmem
    · exact hfailed
    · exact h.2 e hmem

/-- A failed attempt comes before the one that succeeds. -/
theorem DialledWithSuccess.cons {port : UInt16} {ip : IPAddress} {ips : List IPAddress} {d : Dial}
    {dials : List Dial} (htarget : d.target = ⟨ip, port⟩) (hfailed : handlerError < d.answer)
    (h : DialledWithSuccess port ips dials) : DialledWithSuccess port (ip :: ips) (d :: dials) := by
  obtain ⟨done, ip', rest, failed, last, rfl, rfl, hdone, hlast, hmade⟩ := h
  exact ⟨ip :: done, ip', rest, d :: failed, last, rfl, rfl, hdone.cons htarget hfailed, hlast,
    hmade⟩

/-- After a failed attempt, the other addresses are dialled. -/
theorem Dialled.cons {port : UInt16} {ip : IPAddress} {ips : List IPAddress} {d : Dial}
    {dials : List Dial} (htarget : d.target = ⟨ip, port⟩) (hfailed : handlerError < d.answer)
    (h : Dialled port ips dials) : Dialled port (ip :: ips) (d :: dials) :=
  h.imp (FailedDials.cons htarget hfailed) (DialledWithSuccess.cons htarget hfailed)

/-- Connection attempts are made. -/
def Transcript.dial (g : Transcript) (dials : List Dial) : Transcript :=
  { g with dials := g.dials ++ dials }

@[simp] theorem Transcript.dial_nil (g : Transcript) : g.dial [] = g := by
  rw [dial, List.append_nil]

@[simp] theorem Transcript.dial_dial (g : Transcript) (dials more : List Dial) :
    (g.dial dials).dial more = g.dial (dials ++ more) := by
  simp only [dial, List.append_assoc]

namespace Handshake

variable {mayDial : Transcript → IPEndpoint → Timeval → Prop}
  {world : Transcript → (o : JobOp) → o.Answer → Prop} {host : ByteOrder}
  {exits : JobResult → Transcript → Prop} {g : Transcript} {id : ℕ} {buff : Bytes}

/-- The loop dials the addresses in order until a connection is made, and the reply code becomes that
of success only then. -/
theorem wp_connectAny {port : UInt16} {ct : Timeval} {ips : List IPAddress} {attempt : Attempt}
    {ends : Attempt → Transcript → Prop}
    (hmay : ∀ done ip rest dials, ips = done ++ ip :: rest → FailedDials port done dials →
      mayDial (g.dial dials) ⟨ip, port⟩ ct)
    (hexits : ∀ dials s, Dialled port ips dials → exits (.terminal s) (g.dial dials))
    (hends : ∀ dials last, Dialled port ips dials →
      (attempt.rep ≠ 0x00 → last.rep = 0x00 → DialledWithSuccess port ips dials) →
      ends last (g.dial dials)) :
    (conversation mayDial world).wp exits ends (connectAny host port ct attempt ips) g := by
  induction ips generalizing g attempt with
  | nil =>
    have hnone := hends [] attempt (.inl ⟨rfl, fun _ h => nomatch h⟩) (fun hrep heq => absurd heq hrep)
    rwa [Transcript.dial_nil] at hnone
  | cons ip rest ih =>
    rw [connectAny, Contract.wp_bind]
    have hfirst := hmay [] ip rest [] rfl ⟨rfl, fun _ h => nomatch h⟩
    rw [Transcript.dial_nil] at hfirst
    refine ⟨hfirst, fun (target : ℕ) _ => ?_⟩
    have hmore := g.dial_dial [⟨⟨ip, port⟩, ct, target⟩]
    change (conversation mayDial world).wp exits ends _ (g.dial [⟨⟨ip, port⟩, ct, target⟩])
    split_ifs with hfailed
    · apply ih
      · intro done ip' rest' dials hips hdone
        rw [hmore]
        exact hmay (ip :: done) ip' rest' _ (by rw [hips, List.cons_append])
          (hdone.cons rfl hfailed)
      · intro dials s hdialled
        rw [hmore]
        exact hexits _ s (hdialled.cons rfl hfailed)
      · intro dials last hdialled hsuccess
        rw [hmore]
        refine hends _ last (hdialled.cons rfl hfailed) fun hrep hlast => ?_
        exact (hsuccess (failureRep_ne_zero hrep target) hlast).cons rfl hfailed
    · have hmade : DialledWithSuccess port (ip :: rest) [⟨⟨ip, port⟩, ct, target⟩] :=
        ⟨[], ip, rest, [], _, rfl, rfl, ⟨rfl, fun _ h => nomatch h⟩, rfl, Nat.le_of_not_lt hfailed⟩
      exact wp_adoptTarget (fun s => hexits _ s (.inr hmade))
        fun last => hends _ last (.inr hmade) fun _ _ => hmade

/-- Whatever the reply's transfer returns, nothing else happens but the reply. -/
theorem wp_respond {cmd : UInt8} {attempt : Attempt} {ends : Empty → Transcript → Prop}
    (hexits : ∀ r res, exits res (g.reply (replyBytes host attempt) r)) :
    (conversation mayDial world).wp exits ends (respond host id cmd attempt buff) g := by
  rw [respond, Contract.wp_bind, take_storeAt_front]
  refine wp_transferOut fun r _ => ?_
  rw [Contract.wp_bind]
  refine wp_failUnless (fun _ => ?_) fun _ s => hexits r _
  split_ifs with hdone
  · rw [Contract.wp_bind]
    exact wp_disclaimAllHandlers fun s _ => hexits r _
  · exact wp_failWithDisclaim fun s => hexits r _

end Handshake

end TinySox
