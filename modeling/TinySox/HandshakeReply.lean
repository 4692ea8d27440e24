import TinySox.HandshakeAuth
import TinySox.HandshakeConnect

/-!
# The local endpoint in the reply

After a successful connection attempt the reply should name the local endpoint of the new socket.
`getsockname` fills a `sockaddr` of 16 bytes, from which the handshake reads a whole `sockaddr_in6`
if the family says so: the last eight bytes of an IPv6 address are whatever the memory held before.
The port is taken from the structure in network byte order, and the byte order is swapped again
when the reply is made, so that on a little-endian host its bytes come out exchanged.

So the reply is right exactly for ports whose two bytes are equal, and for IPv6 addresses whose
last eight bytes happen to stand behind the buffer. Every other reply has a zero endpoint.
-/

namespace TinySox

open TinySox.Common

/-- `sizeof(sockaddr)` -/
def sockaddrSize : ℕ := 16

/-- The local endpoint that the kernel has assigned to a socket. -/
inductive LocalEndpoint
  | v4 (addr : AddrRecord ipv4AddrLen) (port : UInt16)
  | v6 (addr : AddrRecord ipv6AddrLen) (port : UInt16) (flowinfo scopeID : AddrRecord 4)
  deriving DecidableEq, Repr

namespace LocalEndpoint

/-- The port of the endpoint. -/
def port : LocalEndpoint → UInt16
  | v4 _ port => port
  | v6 _ port _ _ => port

/-- The `sockaddr_in` or `sockaddr_in6` of the endpoint. -/
def sockaddr (host : ByteOrder) : LocalEndpoint → Bytes
  | v4 addr port => host.storeU16 afInet ++ networkPort port ++ addr.val ++ List.replicate 8 0
  | v6 addr port flowinfo scopeID =>
    host.storeU16 afInet6 ++ networkPort port ++ flowinfo.val ++ addr.val ++ scopeID.val

/-- The structure is at least as long as the buffer. -/
theorem sockaddrSize_le (host : ByteOrder) (ep : LocalEndpoint) :
    sockaddrSize ≤ (ep.sockaddr host).length := by
  have hfamily (v : UInt16) : (host.storeU16 v).length = 2 := by cases host <;> rfl
  cases ep with
  | v4 addr port =>
    have haddr : addr.val.length = 4 := addr.property
    simp [sockaddr, hfamily, haddr, sockaddrSize]
  | v6 addr port flowinfo scopeID =>
    have haddr : addr.val.length = 16 := addr.property
    simp only [sockaddr, List.length_append, hfamily, length_networkPort, haddr, sockaddrSize]
    omega

/-- `getsockname(fd, &sa, &sl)` with `sl=sizeof(sa)`: the memory around `sa` afterwards. The kernel
writes no more than `sl` bytes. -/
def getsockname (host : ByteOrder) (ep : LocalEndpoint) (memory : SockAddr) : SockAddr where
  memory := storeAt memory.memory 0 ((ep.sockaddr host).take sockaddrSize)
  size := by
    have hle := ep.sockaddrSize_le host
    have hfit : 0 + ((ep.sockaddr host).take sockaddrSize).length ≤ memory.memory.length := by
      rw [memory.size, List.length_take, Nat.min_eq_left hle]
      decide
    rw [length_storeAt _ _ _ hfit, memory.size]

/-- The type of the address in a reply, the address and the port in network byte order. -/
def encode : LocalEndpoint → Bytes
  | v4 addr port => 0x01 :: (addr.val ++ networkPort port)
  | v6 addr port _ _ => 0x04 :: (addr.val ++ networkPort port)

/-- The memory held the end of the address, and the bytes of the port are equal. -/
def Survives (ep : LocalEndpoint) (memory : SockAddr) : Prop :=
  (∃ b, networkPort ep.port = [b, b]) ∧
    match ep with
    | v4 _ _ => True
    | v6 addr _ _ _ => (memory.memory.drop sockaddrSize).take 8 = addr.val.drop 8

end LocalEndpoint

/-- On a little-endian host a port that was loaded in network byte order is stored with its bytes
exchanged. -/
theorem ByteOrder.little_storeU16_ntohs_loadU16 (b₀ b₁ : UInt8) :
    ByteOrder.little.storeU16 (ByteOrder.little.ntohs (ByteOrder.little.loadU16 b₀ b₁)) =
      [b₁, b₀] := by
  have hreverse (v : UInt16) : ByteOrder.little.storeU16 v = (networkPort v).reverse := rfl
  rw [hreverse, ByteOrder.ntohs_loadU16]
  rfl

/-- Exchanging the bytes of a port changes nothing if they are equal. -/
theorem networkPort_reverse_iff (port : UInt16) :
    (networkPort port).reverse = networkPort port ↔ ∃ b, networkPort port = [b, b] := by
  unfold networkPort
  constructor
  · intro h
    have heq : UInt8.ofNat (port.toNat % 256) = UInt8.ofNat (port.toNat / 256) :=
      (List.cons.inj h).1
    rw [heq]
    exact ⟨_, rfl⟩
  · rintro ⟨b, h⟩
    rw [h]
    rfl

namespace LocalEndpoint

/-- The memory behind an IPv4 endpoint, byte by byte up to its port. -/
theorem memory_v4 (memory : SockAddr) (addr : AddrRecord ipv4AddrLen) (port : UInt16) :
    ∃ rest, ((v4 addr port).getsockname .little memory).memory =
      2 :: 0 :: (networkPort port ++ (addr.val ++ rest)) := by
  refine ⟨List.replicate 8 0 ++ memory.memory.drop 16, ?_⟩
  have hlen : ((v4 addr port).sockaddr .little).length = 16 := by
    have haddr : addr.val.length = 4 := addr.property
    simp [sockaddr, haddr, ByteOrder.storeU16]
  have hwhole : ((v4 addr port).sockaddr .little).take sockaddrSize =
      (v4 addr port).sockaddr .little := List.take_of_length_le (Nat.le_of_eq hlen)
  simp only [getsockname, storeAt, hwhole, hlen, List.take_zero, List.nil_append, Nat.zero_add]
  simp [sockaddr, ByteOrder.storeU16, afInet]

/-- The memory behind an IPv6 endpoint: the second half of the address was there before. -/
theorem memory_v6 (memory : SockAddr) (addr : AddrRecord ipv6AddrLen) (port : UInt16)
    (flowinfo scopeID : AddrRecord 4) :
    ((v6 addr port flowinfo scopeID).getsockname .little memory).memory =
      10 :: 0 :: (networkPort port ++ (flowinfo.val ++
        (addr.val.take 8 ++ memory.memory.drop sockaddrSize))) := by
  have haddr : addr.val.length = 16 := addr.property
  have hflow := flowinfo.property
  have hcut : ((v6 addr port flowinfo scopeID).sockaddr .little).take sockaddrSize =
      10 :: 0 :: (networkPort port ++ (flowinfo.val ++ addr.val.take 8)) := by
    simp [sockaddr, ByteOrder.storeU16, afInet6, sockaddrSize, networkPort, List.take_append,
      hflow, haddr]
  have hlen : (10 :: 0 :: (networkPort port ++ (flowinfo.val ++ addr.val.take 8))).length =
      sockaddrSize := by
    simp [hflow, haddr, sockaddrSize]
  simp only [getsockname, storeAt, hcut, hlen, List.take_zero, List.nil_append, Nat.zero_add]
  simp

/-- The four fixed bytes, the address and the port of a reply that reports a success. -/
theorem replyBytes_connected {attempt : Handshake.Attempt} {sa : SockAddr} {addr rest : Bytes}
    {f₀ f₁ : UInt8} {port : UInt16} (hrep : attempt.rep = 0x00)
    (hbind : attempt.bindEP = .ofSockaddr .little sa)
    (haddress : IPAddress.ofSockaddr .little sa = .ofRaw addr)
    (hlen : addr.length = ipv6AddrLen ∨ addr.length = ipv4AddrLen)
    (hmemory : sa.memory = f₀ :: f₁ :: (networkPort port ++ rest)) :
    Handshake.replyBytes .little attempt =
      [0x05, 0x00, 0x00, if addr.length = ipv6AddrLen then 0x04 else 0x01] ++
        (addr ++ (networkPort port).reverse) := by
  have hport : ByteOrder.little.storeU16
      (ByteOrder.little.ntohs (IPEndpoint.decodePort .little sa)) = (networkPort port).reverse := by
    rw [IPEndpoint.decodePort, SockAddr.loadU16, hmemory]
    exact ByteOrder.little_storeU16_ntohs_loadU16 _ _
  have hv6 : (IPAddress.ofRaw addr).isV6 = decide (addr.length = ipv6AddrLen) := rfl
  simp only [Handshake.replyBytes, hrep, hbind, IPEndpoint.ofSockaddr, IPEndpoint.toRawBuff,
    haddress, IPAddress.toRawBuff_ofRaw hlen, hport, hv6, decide_eq_true_eq]

/-- The reply that names the endpoint. -/
def successReply (ep : LocalEndpoint) : Bytes := [0x05, 0x00, 0x00] ++ ep.encode

/-- The reply names the endpoint exactly if it survives. -/
theorem reply_iff_survives {attempt : Handshake.Attempt} {ep : LocalEndpoint} {memory : SockAddr}
    (hrep : attempt.rep = 0x00)
    (hbind : attempt.bindEP = .ofSockaddr .little (ep.getsockname .little memory)) :
    Handshake.replyBytes .little attempt = ep.successReply ↔ ep.Survives memory := by
  cases ep with
  | v4 addr port =>
    obtain ⟨rest, hmemory⟩ := memory_v4 memory addr port
    have hlen : addr.val.length = ipv4AddrLen := addr.property
    have hfield : ((v4 addr port).getsockname .little memory).field 4 ipv4AddrLen = addr.val := by
      rw [SockAddr.field, hmemory]
      exact List.take_left' hlen
    have hfamily : ((v4 addr port).getsockname .little memory).family .little = afInet := by
      rw [SockAddr.family, SockAddr.loadU16, hmemory]
      rfl
    have hdistinct : ¬ipv4AddrLen = ipv6AddrLen := by decide
    have hsurvives : (v4 addr port).Survives memory ↔ ∃ b, networkPort port = [b, b] :=
      and_iff_left trivial
    rw [replyBytes_connected hrep hbind (IPAddress.ofSockaddr_v4 hfamily hfield hlen) (.inr hlen)
      hmemory, hlen, if_neg hdistinct, hsurvives, ← networkPort_reverse_iff]
    simp only [successReply, encode, List.cons_append, List.nil_append, List.cons.injEq, true_and,
      List.append_cancel_left_eq]
  | v6 addr port flowinfo scopeID =>
    have hmemory := memory_v6 memory addr port flowinfo scopeID
    have haddr : addr.val.length = 16 := addr.property
    have hfirst : (addr.val.take 8).length = 8 := by rw [List.length_take, haddr]; rfl
    have hrest : ((memory.memory.drop sockaddrSize).take 8).length = 8 := by
      rw [List.length_take, List.length_drop, memory.size]
      rfl
    have hlen : (addr.val.take 8 ++ (memory.memory.drop sockaddrSize).take 8).length =
        ipv6AddrLen := by
      rw [List.length_append, hfirst, hrest]
      rfl
    have hfield : ((v6 addr port flowinfo scopeID).getsockname .little memory).field 8 ipv6AddrLen =
        addr.val.take 8 ++ (memory.memory.drop sockaddrSize).take 8 := by
      have hdrop : ((flowinfo.val ++ (addr.val.take 8 ++ memory.memory.drop sockaddrSize)).drop 4) =
          addr.val.take 8 ++ memory.memory.drop sockaddrSize := List.drop_left' flowinfo.property
      rw [SockAddr.field, hmemory]
      change ((flowinfo.val ++ (addr.val.take 8 ++ memory.memory.drop sockaddrSize)).drop 4).take
        (8 + 8) = _
      have hall : (addr.val.take 8).take (8 + 8) = addr.val.take 8 :=
        List.take_of_length_le (Nat.le_trans (Nat.le_of_eq hfirst) (by decide))
      rw [hdrop, List.take_append, hall, hfirst]
    have hfamily : ((v6 addr port flowinfo scopeID).getsockname .little memory).family .little =
        afInet6 := by
      rw [SockAddr.family, SockAddr.loadU16, hmemory]
      rfl
    have haddress : addr.val = addr.val.take 8 ++ addr.val.drop 8 :=
      (List.take_append_drop 8 addr.val).symm
    have hsurvives : (v6 addr port flowinfo scopeID).Survives memory ↔
        (∃ b, networkPort port = [b, b]) ∧
          (memory.memory.drop sockaddrSize).take 8 = addr.val.drop 8 := Iff.rfl
    rw [replyBytes_connected hrep hbind (IPAddress.ofSockaddr_v6 hfamily hfield hlen) (.inl hlen)
      hmemory, hlen, if_pos rfl, hsurvives, ← networkPort_reverse_iff]
    constructor
    · intro h
      simp only [successReply, encode, List.cons_append, List.nil_append, List.cons.injEq,
        true_and] at h
      obtain ⟨hsame, hport⟩ := List.append_inj h (hlen.trans addr.property.symm)
      exact ⟨hport, List.append_cancel_left (hsame.trans haddress)⟩
    · rintro ⟨hport, hsame⟩
      rw [hport, hsame, ← haddress]
      rfl

end LocalEndpoint

namespace Handshake

/-- A reply that reports no success: its code, an IPv4 address of zeros, and port zero. -/
def plainReply (rep : UInt8) : Bytes := [0x05, rep, 0x00, 0x01, 0, 0, 0, 0, 0, 0]

/-- The reply names the local endpoint after a successful attempt, and a zero endpoint otherwise. -/
def NamesEndpoint (ep : LocalEndpoint) (dials : List Dial) (data : Bytes) : Prop :=
  ((∃ d ∈ dials, d.answer ≤ handlerError) → data = ep.successReply) ∧
    ((∀ d ∈ dials, handlerError < d.answer) → ∃ rep, data = plainReply rep)

variable {req : Request} {client : ℕ} {g : ConnectLog} {attempt : Attempt}

/-- Without a success, the endpoint of the reply was never set. -/
theorem replyBytes_unset (host : ByteOrder) (hbind : attempt.bindEP = .unset) :
    replyBytes host attempt = plainReply attempt.rep := by
  have hport : host.storeU16 (host.ntohs 0) = [0, 0] := by cases host <;> rfl
  simp only [replyBytes, hbind, IPEndpoint.unset, IPEndpoint.toRawBuff, hport]
  rfl

/-- A reply is right exactly if the attempts failed, or the local endpoint survives. -/
theorem Performed.names_iff {ep : LocalEndpoint} {memory : SockAddr}
    (h : Performed .little req client g attempt)
    (hnames : ∀ sa ∈ g.sockNames, sa = ep.getsockname .little memory) :
    NamesEndpoint ep g.dials (replyBytes .little attempt) ↔
      ((∃ d ∈ g.dials, d.answer ≤ handlerError) → ep.Survives memory) := by
  have hunset (hbind : attempt.bindEP = .unset) (hall : ∀ d ∈ g.dials, handlerError < d.answer) :
      NamesEndpoint ep g.dials (replyBytes .little attempt) ↔
        ((∃ d ∈ g.dials, d.answer ≤ handlerError) → ep.Survives memory) := by
    have hnone : ¬∃ d ∈ g.dials, d.answer ≤ handlerError := by
      rintro ⟨d, hd, hmade⟩
      exact absurd (hall d hd) (Nat.not_lt.mpr hmade)
    constructor
    · exact fun _ hmade => absurd hmade hnone
    · exact fun _ => ⟨fun hmade => absurd hmade hnone,
        fun _ => ⟨attempt.rep, replyBytes_unset .little hbind⟩⟩
  cases h with
  | unsupported hcmd hdials hrep hbind =>
    apply hunset hbind
    rw [hdials]
    exact fun d hd => absurd hd List.not_mem_nil
  | refused hcmd hdials hrep hbind => exact hunset hbind hdials.2
  | connected last sa hcmd hdials hlast hmade hrep hname hbind howns =>
    have hmem : last ∈ g.dials := List.mem_of_getLast? hlast
    have hsa : sa = ep.getsockname .little memory := by
      apply hnames
      rw [hname]
      exact List.mem_singleton_self sa
    rw [hsa] at hbind
    have hiff := LocalEndpoint.reply_iff_survives hrep hbind
    constructor
    · exact fun hnamed hmade => hiff.mp (hnamed.1 hmade)
    · exact fun hsurvives => ⟨fun hmade => hiff.mpr (hsurvives hmade),
        fun hall => absurd (hall last hmem) (Nat.not_lt.mpr hmade)⟩

/-- The reply of a job that has ended tells what was performed. -/
theorem Ended.performed {host : ByteOrder} {res : JobResult} {data : Bytes} {n : Int}
    (h : Ended host req client res g) (hreply : (data, n) ∈ g.replies) :
    ∃ attempt, Performed host req client g attempt ∧ data = replyBytes host attempt := by
  cases h with
  | silent s hcmd hdials hreplies =>
    rw [hreplies] at hreply
    exact absurd hreply List.not_mem_nil
  | failed attempt m s hperformed hreplies =>
    rw [hreplies, List.mem_singleton] at hreply
    exact ⟨attempt, hperformed, congrArg Prod.fst hreply⟩
  | established attempt m s ids hperformed hreplies =>
    rw [hreplies, List.mem_singleton] at hreply
    exact ⟨attempt, hperformed, congrArg Prod.fst hreply⟩

/-- Fidelity of the reply on a little-endian host. The reply to any request that was completed is
right exactly if no attempt was successful, or the local endpoint survives the way from
`getsockname` into the reply. -/
theorem reply_names_endpoint_iff {cfg : Config} {inet : InetPton} {state : State}
    {owner : ClaimRef → Option ℕ} {c : ClaimRef} {claimed : HandlerClaimState} {buff : Bytes}
    {before t : List (Event JobOp.Answer)} {res : JobResult} {ep : LocalEndpoint}
    {memory : SockAddr} {data : Bytes} {n : Int} (hstate : state.entries = [(c, claimed)])
    (howner : owner c = some claimed.handlerID)
    (hrequest : (execute cfg .little inet state).follow before =
      some (serve cfg .little state claimed.handlerID req buff))
    (hrun : (execute cfg .little inet state).follow (before ++ t) = some (.exit res))
    (hanswers : (serving .little req claimed.handlerID).Kept ⟨owner, [], [], []⟩ t)
    (hnames : ∀ sa ∈ (connectLog owner t).sockNames, sa = ep.getsockname .little memory)
    (hreply : (data, n) ∈ (connectLog owner t).replies) :
    NamesEndpoint ep (connectLog owner t).dials data ↔
      ((∃ d ∈ (connectLog owner t).dials, d.answer ≤ handlerError) → ep.Survives memory) := by
  have howns : ConnectLog.Owns ⟨owner, [], [], []⟩ state [claimed.handlerID] := by
    rw [ConnectLog.Owns, State.handlerClaims, hstate]
    simp [howner]
  have hserve : (serving .little req claimed.handlerID).wp (Ended .little req claimed.handlerID)
      (fun _ _ => True) (serve cfg .little state claimed.handlerID req buff)
        ⟨owner, [], [], []⟩ := serving_serve rfl rfl rfl howns
  rw [Prog.follow_append, hrequest, Option.bind_some] at hrun
  have hended : Ended .little req claimed.handlerID res (connectLog owner t) :=
    Contract.wp_follow hrun hserve hanswers
  obtain ⟨attempt, hperformed, rfl⟩ := hended.performed hreply
  exact hperformed.names_iff hnames

/-- The memory of the buffer before the call. -/
def clearMemory : SockAddr := ⟨List.replicate 28 0, rfl⟩

/-- A login and a request for one address. -/
def oneRequest : List (Event JobOp.Answer) := loginEvents [112] ++ requestEvents

/-- The request is served by a socket with this local endpoint, and this reply is sent. -/
def servedBy (ep : LocalEndpoint) (data : Bytes) : List (Event JobOp.Answer) :=
  [⟨.connectAndCreateHandler ⟨.ofRaw [10, 0, 0, 1], 80⟩ ⟨30, 0⟩, (2 : ℕ)⟩, ⟨.getHandler 2, some 8⟩,
    ⟨.getState 0, ⟨1, 1⟩⟩, ⟨.newClaim 2, (1 : ℕ)⟩, ⟨.claim 1, ⟨1, 2⟩⟩,
    ⟨.getsockname 8, some (ep.getsockname .little clearMemory)⟩, sent data, ⟨.disclaim 0, ⟨0, 1⟩⟩,
    ⟨.disclaim 1, ⟨0, 2⟩⟩]

/-- The claim objects answer with their handlers. -/
theorem servedBy_kept (ep : LocalEndpoint) (data : Bytes) :
    (serving .little ⟨0x01, [.ofRaw [10, 0, 0, 1]], 80⟩ 1).Kept ⟨clientOnly, [], [], []⟩
      (servedBy ep data) := by
  simp [Contract.Kept, serving, ConnectLog.Answers, ConnectLog.record, ConnectLog.reply, servedBy,
    sent, clientOnly]

/-- One attempt is successful, the socket has the local endpoint, and the reply is sent. -/
theorem servedBy_log (ep : LocalEndpoint) (data : Bytes) :
    (connectLog clientOnly (servedBy ep data)).dials =
        [⟨⟨.ofRaw [10, 0, 0, 1], 80⟩, ⟨30, 0⟩, 2⟩] ∧
      (connectLog clientOnly (servedBy ep data)).sockNames = [ep.getsockname .little clearMemory] ∧
      (connectLog clientOnly (servedBy ep data)).replies = [(data, (data.length : Int))] :=
  ⟨rfl, rfl, rfl⟩

/-- The endpoint 10.0.0.2 with the given port. -/
def localV4 (port : UInt16) : LocalEndpoint := .v4 ⟨[10, 0, 0, 2], rfl⟩ port

/-- The port 257 has two equal bytes, and is named. -/
theorem reply_names_endpoint_iff_equalBytes :
    NamesEndpoint (localV4 257) [⟨⟨.ofRaw [10, 0, 0, 1], 80⟩, ⟨30, 0⟩, 2⟩]
      [0x05, 0x00, 0x00, 0x01, 10, 0, 0, 2, 1, 1] := by
  have hstate : oneHandler.entries = [(0, HandlerClaimState.mk 1 1)] := rfl
  have howner : clientOnly 0 = some (HandlerClaimState.mk 1 1).handlerID := rfl
  obtain ⟨buff, hrequest⟩ : ∃ buff, (execute oneUser .little noLiterals oneHandler).follow
      oneRequest = some (serve oneUser .little oneHandler 1 ⟨0x01, [.ofRaw [10, 0, 0, 1]], 80⟩ buff) :=
    ⟨_, rfl⟩
  have hrun : (execute oneUser .little noLiterals oneHandler).follow
      (oneRequest ++ servedBy (localV4 257) [0x05, 0x00, 0x00, 0x01, 10, 0, 0, 2, 1, 1]) =
        some (.exit (.modeConnect ⟨[(0, ⟨0, 1⟩), (1, ⟨0, 2⟩)]⟩)) := rfl
  obtain ⟨hdials, hnames, hreplies⟩ :=
    servedBy_log (localV4 257) [0x05, 0x00, 0x00, 0x01, 10, 0, 0, 2, 1, 1]
  rw [← hdials]
  have hiff := reply_names_endpoint_iff hstate howner hrequest hrun (servedBy_kept _ _)
    (fun sa hsa => List.mem_singleton.mp (hnames ▸ hsa)) (hreplies ▸ List.mem_singleton_self _)
  exact hiff.mpr fun _ => ⟨⟨1, rfl⟩, trivial⟩

/-- The job serves the request with this reply, which does not name the endpoint. -/
def Misnames (ep : LocalEndpoint) (data : Bytes) : Prop :=
  (execute oneUser .little noLiterals oneHandler).follow (oneRequest ++ servedBy ep data) =
      some (.exit (.modeConnect ⟨[(0, ⟨0, 1⟩), (1, ⟨0, 2⟩)]⟩)) ∧
    ¬NamesEndpoint ep (connectLog clientOnly (servedBy ep data)).dials data

/-- The port 8080 is sent as 36895, and the second half of an IPv6 address is lost. -/
theorem reply_misnames_endpoint :
    Misnames (localV4 8080) [0x05, 0x00, 0x00, 0x01, 10, 0, 0, 2, 144, 31] ∧
      Misnames (.v6 ⟨[32, 1, 13, 184, 0, 0, 0, 0, 0, 0, 0, 0, 0, 0, 0, 1], rfl⟩ 257
          ⟨[0, 0, 0, 0], rfl⟩ ⟨[0, 0, 0, 0], rfl⟩)
        [0x05, 0x00, 0x00, 0x04, 32, 1, 13, 184, 0, 0, 0, 0, 0, 0, 0, 0, 0, 0, 0, 0, 1, 1] := by
  constructor
  · refine ⟨rfl, fun hnames => ?_⟩
    have hreply := hnames.1 ⟨_, List.mem_singleton_self _, by decide⟩
    exact absurd hreply (by decide)
  · refine ⟨rfl, fun hnames => ?_⟩
    have hreply := hnames.1 ⟨_, List.mem_singleton_self _, by decide⟩
    exact absurd hreply (by decide)

end Handshake

end TinySox
