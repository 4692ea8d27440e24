import TinySox.JobProgram

/-!
# The SOCKS5 messages of a client

The bytes of a greeting, of a login and of a request, as the protocol defines them, for
method lists, names and passwords of up to 255 bytes. Each message can be told from what
follows it, so that a stream begins with at most one greeting, login or request.
-/

namespace TinySox

/-- A byte string whose length fits into one byte. -/
abbrev ShortBytes := { b : Bytes // b.length ≤ 255 }

namespace ShortBytes

/-- The byte that announces the length. -/
def lengthByte (b : ShortBytes) : UInt8 := UInt8.ofNat b.val.length

/-- A string after its length. -/
def encode (b : ShortBytes) : Bytes := b.lengthByte :: b.val

/-- The announced length is the length. -/
@[simp] theorem toNat_lengthByte (b : ShortBytes) : b.lengthByte.toNat = b.val.length := by
  have hlen := b.property
  rw [lengthByte, UInt8.toNat_ofNat', Nat.mod_eq_of_lt (by omega)]

/-- Any byte announces some length. -/
def ofAnnounced (n : UInt8) (data : Bytes) (hlen : data.length = n.toNat) : ShortBytes :=
  ⟨data, by have := n.toNat_lt; omega⟩

/-- An encoded string can be told from what follows it. -/
theorem encode_append_inj {b c : ShortBytes} {r s : Bytes} (h : b.encode ++ r = c.encode ++ s) :
    b = c ∧ r = s := by
  rw [encode, encode, List.cons_append, List.cons_append, List.cons.injEq] at h
  have hlen : b.val.length = c.val.length := by
    rw [← toNat_lengthByte, ← toNat_lengthByte, h.1]
  obtain ⟨hval, hrest⟩ := List.append_inj h.2 hlen
  exact ⟨Subtype.ext hval, hrest⟩

end ShortBytes

/-- The first message: version 5 and the methods that the client offers. -/
def greetingBytes (methods : ShortBytes) : Bytes := 0x05 :: methods.encode

/-- The login: version 1, the name and the password. -/
def loginBytes (username password : ShortBytes) : Bytes :=
  0x01 :: (username.encode ++ password.encode)

/-- The destination of a request. -/
inductive Destination
  | v4 (raw : AddrRecord ipv4AddrLen)
  | v6 (raw : AddrRecord ipv6AddrLen)
  | domain (name : ShortBytes)
  deriving DecidableEq

/-- The type byte and the address. -/
def Destination.encode : Destination → Bytes
  | .v4 raw => 0x01 :: raw.val
  | .v6 raw => 0x04 :: raw.val
  | .domain name => 0x03 :: name.encode

/-- The request: version 5, the command, a reserved byte, the destination and the port. -/
def requestBytes (cmd rsv : UInt8) (dest : Destination) (port : UInt16) : Bytes :=
  [0x05, cmd, rsv] ++ dest.encode ++ networkPort port

/-- A greeting can be told from what follows it. -/
theorem greetingBytes_append_inj {methods methods' : ShortBytes} {r s : Bytes}
    (h : greetingBytes methods ++ r = greetingBytes methods' ++ s) : methods = methods' ∧ r = s := by
  rw [greetingBytes, greetingBytes, List.cons_append, List.cons_append, List.cons.injEq] at h
  exact ShortBytes.encode_append_inj h.2

/-- A login can be told from what follows it. -/
theorem loginBytes_append_inj {username username' password password' : ShortBytes} {r s : Bytes}
    (h : loginBytes username password ++ r = loginBytes username' password' ++ s) :
    username = username' ∧ password = password' ∧ r = s := by
  rw [loginBytes, loginBytes, List.cons_append, List.cons_append, List.cons.injEq,
    List.append_assoc, List.append_assoc] at h
  obtain ⟨rfl, hrest⟩ := ShortBytes.encode_append_inj h.2
  obtain ⟨rfl, hend⟩ := ShortBytes.encode_append_inj hrest
  exact ⟨rfl, rfl, hend⟩

/-- The methods that the server accepts: a login, and anonymous use if the table has a user
with the empty name. -/
def Acceptable (cfg : Config) (m : UInt8) : Prop :=
  m = 0x02 ∨ m = 0x00 ∧ (cfg.getUser []).isSome

/-- The method is offered, and it is the first acceptable one. -/
def FirstAcceptable (cfg : Config) (methods : Bytes) (m : UInt8) : Prop :=
  Acceptable cfg m ∧ ∃ before after, methods = before ++ m :: after ∧
    ∀ b ∈ before, ¬ Acceptable cfg b

/-- A list has at most one first acceptable method. -/
theorem FirstAcceptable.unique {cfg : Config} {methods : Bytes} {m m' : UInt8}
    (h : FirstAcceptable cfg methods m) (h' : FirstAcceptable cfg methods m') : m = m' := by
  obtain ⟨hm, before, after, rfl, hbefore⟩ := h
  obtain ⟨hm', before', after', heq, hbefore'⟩ := h'
  induction before generalizing before' with
  | nil =>
    cases before' with
    | nil => exact (List.cons.inj heq).1
    | cons b rest =>
      have hb : m = b := (List.cons.inj heq).1
      exact absurd hm (hbefore' m (hb ▸ List.mem_cons_self))
  | cons c rest ih =>
    cases before' with
    | nil =>
      have hc : c = m' := (List.cons.inj heq).1
      exact absurd hm' (hbefore m' (hc ▸ List.mem_cons_self))
    | cons b rest' =>
      refine ih (fun x hx => hbefore x (List.mem_cons_of_mem c hx)) rest' ?_
        (fun x hx => hbefore' x (List.mem_cons_of_mem b hx))
      exact (List.cons.inj heq).2

end TinySox
