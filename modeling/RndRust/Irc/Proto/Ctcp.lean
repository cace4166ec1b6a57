import Mathlib.Algebra.Ring.Nat
import RndRust.Irc.Proto.Text

/-! CTCP messages and the DCC requests that travel in them, `ctcp.rs` and `dcc.rs`. -/
namespace RndRust.Irc.Proto
open Lib

/-- The byte around a CTCP message. -/
abbrev ctcpMark : UInt8 := 1

structure CtcpMessage where
  command : Bytes
  args : Bytes
  deriving DecidableEq, Repr

/-- `CtcpMessage::parse`. -/
def CtcpMessage.parse (text : Bytes) : Option CtcpMessage :=
  if text.head? ≠ some ctcpMark then none
  else
    let innerStart := 1
    let innerEnd := if text.getLast? = some ctcpMark then text.length - 1 else text.length
    if innerEnd ≤ innerStart then some ⟨[], []⟩
    else
      let inner := (text.take innerEnd).drop innerStart
      match inner.findIdx? (· = sp) with
      | some space => some ⟨inner.take space, inner.drop (space + 1)⟩
      | none => some ⟨inner, []⟩

/-- `CtcpMessage::write`. -/
def CtcpMessage.write (msg : CtcpMessage) : Bytes :=
  ctcpMark :: msg.command ++ (if msg.args ≠ [] then sp :: msg.args else []) ++ [ctcpMark]

/-- `Ipv4Addr`: its octets. -/
structure Ipv4Addr where
  a : UInt8
  b : UInt8
  c : UInt8
  d : UInt8
  deriving DecidableEq, Repr

/-- `ip_to_u32`: the octets in big-endian order. -/
def ipToU32 (ip : Ipv4Addr) : ℕ := ((ip.a.toNat * 256 + ip.b.toNat) * 256 + ip.c.toNat) * 256 + ip.d.toNat

/-- `u32_to_ip`. -/
def u32ToIp (n : ℕ) : Ipv4Addr := ⟨.ofNat (n / 2 ^ 24), .ofNat (n / 2 ^ 16), .ofNat (n / 2 ^ 8), .ofNat n⟩

inductive DccRequest where
  | chat (ip : Ipv4Addr) (port : UInt16)
  | send (filename : Bytes) (ip : Ipv4Addr) (port : UInt16) (size : UInt64)
  deriving DecidableEq, Repr

/-- `u8::is_ascii_whitespace`. -/
def isAsciiWhitespace (b : UInt8) : Bool := b == sp || b == 9 || b == 10 || b == 12 || b == 13

/-- `str::split_ascii_whitespace`. -/
def splitAsciiWhitespace (text : Bytes) : List Bytes := (text.splitOnP isAsciiWhitespace).filter (· ≠ [])

/-- `DccRequest::parse`. -/
def DccRequest.parse (args : Bytes) : Option DccRequest := do
  let s ← fromUtf8 args
  match splitAsciiWhitespace s with
  | [] => none
  | sub :: parts =>
    if toAsciiUppercase sub = ascii "CHAT" then
      match parts with
      | _protocol :: ipStr :: portStr :: _ =>
        let ipNum ← parseUnsigned (2 ^ 32) ipStr
        let port ← parseUnsigned (2 ^ 16) portStr
        some (.chat (u32ToIp ipNum) (.ofNat port))
      | _ => none
    else if toAsciiUppercase sub = ascii "SEND" then
      match parts with
      | filename :: ipStr :: portStr :: sizeStr :: _ =>
        let ipNum ← parseUnsigned (2 ^ 32) ipStr
        let port ← parseUnsigned (2 ^ 16) portStr
        let size ← parseUnsigned (2 ^ 64) sizeStr
        some (.send filename (u32ToIp ipNum) (.ofNat port) (.ofNat size))
      | _ => none
    else none

/-- `DccRequest::to_ctcp_args`. -/
def DccRequest.toCtcpArgs : DccRequest → Bytes
  | .chat ip port => ascii "CHAT chat " ++ decimal (ipToU32 ip) ++ sp :: decimal port.toNat
  | .send filename ip port size =>
    ascii "SEND " ++ filename ++ sp :: decimal (ipToU32 ip) ++ sp :: decimal port.toNat ++ sp :: decimal size.toNat

/-- `DccRequest::to_ctcp_payload`. -/
def DccRequest.toCtcpPayload (request : DccRequest) : Bytes :=
  ctcpMark :: ascii "DCC " ++ request.toCtcpArgs ++ [ctcpMark]

section Messages

variable {msg : CtcpMessage} {command args : Bytes}

/-- What is between the marks is cut at its first space. -/
theorem CtcpMessage.parse_marked (body : Bytes) : CtcpMessage.parse (ctcpMark :: body ++ [ctcpMark]) =
    some (match body.findIdx? (· = sp) with
      | some space => ⟨body.take space, body.drop (space + 1)⟩
      | none => ⟨body, []⟩) := by
  have last : (ctcpMark :: body ++ [ctcpMark]).getLast? = some ctcpMark := List.getLast?_concat
  have inner : ((ctcpMark :: body ++ [ctcpMark]).take (body.length + 1)).drop 1 = body := by simp
  have length : (ctcpMark :: body ++ [ctcpMark]).length - 1 = body.length + 1 := by simp
  rw [CtcpMessage.parse, if_neg (by simp)]
  dsimp only
  rw [if_pos last, length, inner]
  cases body with
  | nil => rfl
  | cons b body =>
    rw [if_neg (by simp)]
    split <;> rfl

theorem findIdx?_eq_none (single : sp ∉ command) : command.findIdx? (· = sp) = none :=
  List.findIdx?_eq_none_iff.mpr fun _ listed => decide_eq_false fun same => single (same ▸ listed)

/-- A written message is read as it was, if its command has no space. -/
theorem CtcpMessage.parse_write (single : sp ∉ msg.command) : CtcpMessage.parse msg.write = some msg := by
  obtain ⟨command, args⟩ := msg
  rw [CtcpMessage.write, List.cons_append, CtcpMessage.parse_marked]
  by_cases empty : args = []
  · rw [if_neg (not_not.mpr empty), List.append_nil, findIdx?_eq_none single, empty]
  · have found : (command ++ sp :: args).findIdx? (· = sp) = some command.length := by
      rw [List.findIdx?_append, findIdx?_eq_none single]
      simp [List.findIdx?_cons]
    rw [if_pos empty, found]
    simp

end Messages

section Requests

variable {ip : Ipv4Addr} {request : DccRequest} {word rest : Bytes}

theorem u32ToIp_ipToU32 (ip : Ipv4Addr) : u32ToIp (ipToU32 ip) = ip := by
  obtain ⟨a, b, c, d⟩ := ip
  have := a.toNat_lt
  have := b.toNat_lt
  have := c.toNat_lt
  have := d.toNat_lt
  simp only [u32ToIp, ipToU32, Ipv4Addr.mk.injEq, ← UInt8.toNat_inj, UInt8.toNat_ofNat']
  omega

theorem ipToU32_lt (ip : Ipv4Addr) : ipToU32 ip < 2 ^ 32 := by
  have := ip.a.toNat_lt
  have := ip.b.toNat_lt
  have := ip.c.toNat_lt
  have := ip.d.toNat_lt
  rw [ipToU32]
  omega

/-- A word of a request: it has bytes, and none that ends it. -/
def IsWord (word : Bytes) : Prop := word ≠ [] ∧ ∀ b ∈ word, isAsciiWhitespace b = false

theorem splitAsciiWhitespace_word (is : IsWord word) : splitAsciiWhitespace word = [word] := by
  rw [splitAsciiWhitespace, List.splitOnP_eq_singleton is.2]
  simp [is.1]

theorem splitAsciiWhitespace_append (is : IsWord word) :
    splitAsciiWhitespace (word ++ sp :: rest) = word :: splitAsciiWhitespace rest := by
  rw [splitAsciiWhitespace, List.splitOnP_append_cons_of_forall_mem is.2 sp rfl]
  simp [is.1, splitAsciiWhitespace]

theorem isWord_decimal (n : ℕ) : IsWord (decimal n) := by
  refine ⟨decimal_ne_nil n, fun b listed => Bool.eq_false_iff.mpr fun space => ?_⟩
  have digit := decimal_digits n b listed
  simp only [isAsciiWhitespace, Bool.or_eq_true, beq_iff_eq] at space
  rcases space with (((rfl | rfl) | rfl) | rfl) | rfl <;> cases digit

/-- A request that can be written: its filename is a string, and one word. -/
def DccRequest.Plain : DccRequest → Prop
  | .chat .. => True
  | .send filename .. => fromUtf8 filename = some filename ∧ IsWord filename

/-- The text of a decimal number is a word. -/
theorem textWord_decimal (n : ℕ) : fromUtf8 (decimal n) = some (decimal n) ∧ IsWord (decimal n) := by
  refine ⟨fromUtf8_ascii fun b listed => ?_, isWord_decimal n⟩
  have digit := decimal_digits n b listed
  simp only [isAsciiDigit, Bool.and_eq_true, decide_eq_true_eq] at digit
  exact UInt8.lt_of_le_of_lt digit.2 (by decide)

/-- Words that are joined by spaces make one text, which is split into them again. -/
theorem split_joined {words : List Bytes} (are : ∀ word ∈ words, fromUtf8 word = some word ∧ IsWord word) :
    fromUtf8 (join [sp] words) = some (join [sp] words) ∧ splitAsciiWhitespace (join [sp] words) = words := by
  induction words with
  | nil => exact ⟨by decide +kernel, rfl⟩
  | cons word words ih =>
    obtain ⟨⟨valid, is⟩, later⟩ := List.forall_mem_cons.mp are
    obtain ⟨rest, split⟩ := ih later
    cases words with
    | nil =>
      have alone : join [sp] [word] = word := by simp [join]
      rw [alone]
      exact ⟨valid, splitAsciiWhitespace_word is⟩
    | cons next words =>
      have joined : join [sp] (word :: next :: words) = word ++ ([sp] ++ join [sp] (next :: words)) := by simp [join]
      have space : fromUtf8 [sp] = some [sp] := by decide +kernel
      rw [joined]
      refine ⟨fromUtf8_append valid (fromUtf8_append space rest), ?_⟩
      exact (splitAsciiWhitespace_append is).trans (congrArg (List.cons word) split)

/-- A written request is read as it was. -/
theorem DccRequest.parse_toCtcpArgs (plain : request.Plain) : DccRequest.parse request.toCtcpArgs = some request := by
  have address (ip : Ipv4Addr) : parseUnsigned (2 ^ 32) (decimal (ipToU32 ip)) = some (ipToU32 ip) :=
    parseUnsigned_decimal (ipToU32_lt ip)
  have number (port : UInt16) : parseUnsigned (2 ^ 16) (decimal port.toNat) = some port.toNat :=
    parseUnsigned_decimal port.toNat_lt
  have fixed : ∀ word ∈ [ascii "CHAT", ascii "chat", ascii "SEND"], fromUtf8 word = some word ∧ IsWord word := by
    simp only [IsWord]
    decide +kernel
  cases request with
  | chat ip port =>
    have written : toCtcpArgs (.chat ip port) =
        join [sp] [ascii "CHAT", ascii "chat", decimal (ipToU32 ip), decimal port.toNat] := by
      have front : ascii "CHAT chat " = ascii "CHAT" ++ sp :: (ascii "chat" ++ [sp]) := rfl
      simp [toCtcpArgs, join, front]
    have are : ∀ word ∈ [ascii "CHAT", ascii "chat", decimal (ipToU32 ip), decimal port.toNat],
        fromUtf8 word = some word ∧ IsWord word := by
      simp only [List.forall_mem_cons]
      exact ⟨fixed _ (by simp), fixed _ (by simp), textWord_decimal _, textWord_decimal _, List.forall_mem_nil _⟩
    obtain ⟨valid, words⟩ := split_joined are
    have named : toAsciiUppercase (ascii "CHAT") = ascii "CHAT" := by decide
    simp only [DccRequest.parse, written, valid, words, named, address, number, u32ToIp_ipToU32, UInt16.ofNat_toNat,
      Option.bind_eq_bind, Option.bind_some, if_true]
  | send filename ip port size =>
    have written : toCtcpArgs (.send filename ip port size) =
        join [sp] [ascii "SEND", filename, decimal (ipToU32 ip), decimal port.toNat, decimal size.toNat] := by
      have front : ascii "SEND " = ascii "SEND" ++ [sp] := rfl
      simp [toCtcpArgs, join, front]
    have are : ∀ word ∈ [ascii "SEND", filename, decimal (ipToU32 ip), decimal port.toNat, decimal size.toNat],
        fromUtf8 word = some word ∧ IsWord word := by
      simp only [List.forall_mem_cons]
      exact ⟨fixed _ (by simp), plain, textWord_decimal _, textWord_decimal _, textWord_decimal _, List.forall_mem_nil _⟩
    obtain ⟨valid, words⟩ := split_joined are
    have named : toAsciiUppercase (ascii "SEND") = ascii "SEND" ∧ ¬ascii "SEND" = ascii "CHAT" := by decide
    have length : parseUnsigned (2 ^ 64) (decimal size.toNat) = some size.toNat := parseUnsigned_decimal size.toNat_lt
    simp only [DccRequest.parse, written, valid, words, named, address, number, length, u32ToIp_ipToU32,
      UInt16.ofNat_toNat, UInt64.ofNat_toNat, Option.bind_eq_bind, Option.bind_some, if_true, if_false]

/-- The payload of a request is a CTCP message with the request in its arguments. -/
theorem DccRequest.toCtcpPayload_eq (request : DccRequest) :
    request.toCtcpPayload = CtcpMessage.write ⟨ascii "DCC", request.toCtcpArgs⟩ := by
  have some : request.toCtcpArgs ≠ [] := by
    cases request <;> simp [toCtcpArgs, ascii]
  rw [CtcpMessage.write, if_pos some]
  rfl

end Requests

/-- **DCC requests and CTCP messages round trip**: a request is read from the arguments written for
it, also out of its payload, and a message whose command has no space from its text. -/
theorem dcc_round_trip : (∀ request : DccRequest, request.Plain → DccRequest.parse request.toCtcpArgs = some request ∧
      CtcpMessage.parse request.toCtcpPayload = some ⟨ascii "DCC", request.toCtcpArgs⟩) ∧
    ∀ msg : CtcpMessage, sp ∉ msg.command → CtcpMessage.parse msg.write = some msg := by
  refine ⟨fun request plain => ⟨DccRequest.parse_toCtcpArgs plain, ?_⟩, fun msg => CtcpMessage.parse_write⟩
  rw [DccRequest.toCtcpPayload_eq]
  exact CtcpMessage.parse_write (show sp ∉ ascii "DCC" by decide)

end RndRust.Irc.Proto
