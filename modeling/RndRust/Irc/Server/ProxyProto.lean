import Mathlib.Algebra.Ring.Nat
import Mathlib.Data.List.GetD
import RndRust.Irc.Proto.Casemap
import RndRust.Lib.Takers

/-! The header that a proxy sends in front of a connection, `proxy_proto.rs`. -/
namespace RndRust.Irc.Server
open Lib Proto

/-- `SIGNATURE`. -/
def proxySignature : Bytes := [0x0D, 0x0A, 0x0D, 0x0A, 0x00, 0x0D, 0x0A, 0x51, 0x55, 0x49, 0x54, 0x0A]

/-- An address: its octets and its port. -/
inductive SocketAddr where
  | v4 (ip : Bytes) (port : ℕ)
  | v6 (ip : Bytes) (port : ℕ)
  deriving DecidableEq, Repr

inductive ProxyProtoError where
  | io
  | invalidSignature
  | unsupportedVersion
  | unsupportedFamily
  deriving DecidableEq, Repr

/-- `u16::from_be_bytes`. -/
def fromBe16 (high low : UInt8) : ℕ := high.toNat * 256 + low.toNat

/-- `u16::to_be_bytes`. -/
def toBe16 (n : ℕ) : Bytes := [UInt8.ofNat (n / 256), UInt8.ofNat (n % 256)]

/-- What the address block of a proxied connection says of its source. -/
def proxySource (famProto : UInt8) (block : Bytes) : Except ProxyProtoError (Option SocketAddr) :=
  if famProto = 0x11 then
    if block.length < 12 then .error .io
    else .ok (some (.v4 (block.take 4) (fromBe16 (block.getD 8 0) (block.getD 9 0))))
  else if famProto = 0x21 then
    if block.length < 36 then .error .io
    else .ok (some (.v6 (block.take 16) (fromBe16 (block.getD 32 0) (block.getD 33 0))))
  else .error .unsupportedFamily

/-- A value that has been computed, or its error. -/
def ofExcept {ε α : Type} (result : Except ε α) : Taker UInt8 ε α :=
  match result with
  | .ok a => .pure a
  | .error e => .fail e

/-- `read_proxy_header`: the address block is taken before the command is looked at. -/
def readProxyHeader : Taker UInt8 ProxyProtoError (Option SocketAddr) :=
  (Taker.exactly 16 .io).bind fun hdr =>
    if hdr.take 12 ≠ proxySignature then .fail .invalidSignature
    else
      let verCmd := hdr.getD 12 0
      if verCmd &&& 0xF0 ≠ 0x20 then .fail .unsupportedVersion
      else
        (Taker.exactly (fromBe16 (hdr.getD 14 0) (hdr.getD 15 0)) .io).bind fun block =>
          if verCmd &&& 0x0F = 0 then .pure none
          else if verCmd &&& 0x0F ≠ 1 then .fail .unsupportedVersion
          else ofExcept (proxySource (hdr.getD 13 0) block)

/-- A header of the protocol, and the source it names. A block may go on after the addresses. -/
inductive ProxyHeader : Bytes → Option SocketAddr → Prop
  | probe {famProto : UInt8} {block : Bytes} (fits : block.length < 2 ^ 16) :
      ProxyHeader (proxySignature ++ [0x20, famProto] ++ toBe16 block.length ++ block) none
  | inet {src dst more : Bytes} {srcPort dstPort : ℕ} (source : src.length = 4) (destination : dst.length = 4)
      (port : srcPort < 2 ^ 16) (fits : 12 + more.length < 2 ^ 16) :
      ProxyHeader (proxySignature ++ [0x21, 0x11] ++ toBe16 (12 + more.length) ++
        (src ++ dst ++ toBe16 srcPort ++ toBe16 dstPort ++ more)) (some (.v4 src srcPort))
  | inet6 {src dst more : Bytes} {srcPort dstPort : ℕ} (source : src.length = 16) (destination : dst.length = 16)
      (port : srcPort < 2 ^ 16) (fits : 36 + more.length < 2 ^ 16) :
      ProxyHeader (proxySignature ++ [0x21, 0x21] ++ toBe16 (36 + more.length) ++
        (src ++ dst ++ toBe16 srcPort ++ toBe16 dstPort ++ more)) (some (.v6 src srcPort))

section Bytes

variable {b high low : UInt8} {n : ℕ} {block rest : Bytes}

theorem fromBe16_digits (fits : n < 2 ^ 16) : fromBe16 (UInt8.ofNat (n / 256)) (UInt8.ofNat (n % 256)) = n := by
  simp only [fromBe16, UInt8.toNat_ofNat']
  omega

theorem toBe16_fromBe16 : toBe16 (fromBe16 high low) = [high, low] := by
  have left := high.toNat_lt
  have right := low.toNat_lt
  have first : (high.toNat * 256 + low.toNat) / 256 = high.toNat := by omega
  have second : (high.toNat * 256 + low.toNat) % 256 = low.toNat := by omega
  simp [toBe16, fromBe16, first, second]

theorem fromBe16_lt : fromBe16 high low < 2 ^ 16 := by
  have left := high.toNat_lt
  have right := low.toNat_lt
  unfold fromBe16
  omega

/-- A byte is its two halves. -/
theorem nibbles (version : b &&& 0xF0 = 0x20) : (b &&& 0x0F = 0 → b = 0x20) ∧ (b &&& 0x0F = 1 → b = 0x21) := by
  have each : ∀ n < 256, UInt8.ofNat n &&& 0xF0 = 0x20 → (UInt8.ofNat n &&& 0x0F = 0 → UInt8.ofNat n = 0x20) ∧
      (UInt8.ofNat n &&& 0x0F = 1 → UInt8.ofNat n = 0x21) := by decide +kernel
  simpa only [UInt8.ofNat_toNat] using each b.toNat b.toNat_lt (by rwa [UInt8.ofNat_toNat])

/-- Two addresses, two ports and the rest. -/
theorem exists_addresses (long : 2 * n + 4 ≤ block.length) : ∃ src dst p₀ p₁ q₀ q₁ more,
    block = src ++ dst ++ [p₀, p₁] ++ [q₀, q₁] ++ more ∧ src.length = n ∧ dst.length = n := by
  have ports : 4 ≤ (block.drop (2 * n)).length := by
    rw [List.length_drop]
    omega
  obtain ⟨p₀, p₁, q₀, q₁, more, last⟩ : ∃ p₀ p₁ q₀ q₁ more, block.drop (2 * n) = p₀ :: p₁ :: q₀ :: q₁ :: more := by
    match block.drop (2 * n), ports with
    | p₀ :: p₁ :: q₀ :: q₁ :: more, _ => exact ⟨p₀, p₁, q₀, q₁, more, rfl⟩
  refine ⟨block.take n, (block.drop n).take n, p₀, p₁, q₀, q₁, more, ?_, by simp; omega, by simp; omega⟩
  have middle : (block.drop n).drop n = block.drop (2 * n) := by rw [List.drop_drop, Nat.two_mul]
  conv_lhs => rw [← List.take_append_drop n block, ← List.take_append_drop n (block.drop n), middle, last]
  simp

theorem read_addresses {src dst more : Bytes} {p₀ p₁ q₀ q₁ : UInt8} (source : src.length = n)
    (destination : dst.length = n) (same : block = src ++ dst ++ [p₀, p₁] ++ [q₀, q₁] ++ more) :
    block.take n = src ∧ block.getD (2 * n) 0 = p₀ ∧ block.getD (2 * n + 1) 0 = p₁ ∧ 2 * n + 4 ≤ block.length := by
  have shape : block = (src ++ dst) ++ (p₀ :: p₁ :: q₀ :: q₁ :: more) := by rw [same]; simp
  have ports : (src ++ dst).length = 2 * n := by rw [List.length_append, source, destination, Nat.two_mul]
  refine ⟨?_, ?_, ?_, ?_⟩
  · rw [shape, List.append_assoc, List.take_left' source]
  · rw [shape, List.getD_append_right _ _ _ _ (Nat.le_of_eq ports), ports, Nat.sub_self, List.getD_cons_zero]
  · rw [shape, List.getD_append_right _ _ _ _ (by omega), ports, Nat.add_sub_cancel_left, List.getD_cons_succ,
      List.getD_cons_zero]
  · rw [shape, List.length_append, ports]
    simp

end Bytes

section Headers

variable {input rest block : Bytes} {source : Option SocketAddr} {famProto verCmd high low : UInt8}

/-- What is read after the sixteen bytes of a header. -/
theorem take_header : readProxyHeader.take (proxySignature ++ [verCmd, famProto, high, low] ++ input) =
    if verCmd &&& 0xF0 ≠ 0x20 then .error .unsupportedVersion
    else ((Taker.exactly (fromBe16 high low) .io).bind fun block =>
      if verCmd &&& 0x0F = 0 then .pure none
      else if verCmd &&& 0x0F ≠ 1 then .fail .unsupportedVersion
      else ofExcept (proxySource famProto block)).take input := by
  rw [readProxyHeader, Taker.take_bind (Taker.take_exactly (by simp [proxySignature]))]
  have signature : (proxySignature ++ [verCmd, famProto, high, low]).take 12 = proxySignature := rfl
  rw [if_neg (by rw [signature]; simp)]
  have version : (proxySignature ++ [verCmd, famProto, high, low]).getD 12 0 = verCmd := rfl
  dsimp only
  rw [version]
  split <;> rfl

/-- A block of addresses, as it is written and as it is read. -/
theorem proxySource_ok : proxySource famProto block = .ok source ↔ ∃ src dst p₀ p₁ q₀ q₁ more,
    block = src ++ dst ++ [p₀, p₁] ++ [q₀, q₁] ++ more ∧
      (famProto = 0x11 ∧ src.length = 4 ∧ dst.length = 4 ∧ source = some (.v4 src (fromBe16 p₀ p₁)) ∨
        famProto = 0x21 ∧ src.length = 16 ∧ dst.length = 16 ∧ source = some (.v6 src (fromBe16 p₀ p₁))) := by
  constructor
  · intro read
    unfold proxySource at read
    split at read
    · rename_i inet
      split at read
      · cases read
      · rename_i long
        obtain ⟨src, dst, p₀, p₁, q₀, q₁, more, same, first, second⟩ :=
          exists_addresses (show 2 * 4 + 4 ≤ block.length by omega)
        obtain ⟨ip, port, port', -⟩ := read_addresses first second same
        refine ⟨src, dst, p₀, p₁, q₀, q₁, more, same, .inl ⟨inet, first, second, ?_⟩⟩
        rw [← ip, ← port, ← port']
        exact (Except.ok.inj read).symm
    split at read
    · rename_i inet6
      split at read
      · cases read
      · rename_i long
        obtain ⟨src, dst, p₀, p₁, q₀, q₁, more, same, first, second⟩ :=
          exists_addresses (show 2 * 16 + 4 ≤ block.length by omega)
        obtain ⟨ip, port, port', -⟩ := read_addresses first second same
        refine ⟨src, dst, p₀, p₁, q₀, q₁, more, same, .inr ⟨inet6, first, second, ?_⟩⟩
        rw [← ip, ← port, ← port']
        exact (Except.ok.inj read).symm
    · cases read
  · rintro ⟨src, dst, p₀, p₁, q₀, q₁, more, same, ⟨rfl, first, second, rfl⟩ | ⟨rfl, first, second, rfl⟩⟩
    all_goals obtain ⟨ip, port, port', long⟩ := read_addresses first second same
    · rw [proxySource, if_pos rfl, if_neg (by omega), ip, port, port']
    · rw [proxySource, if_neg (by decide), if_pos rfl, if_neg (by omega), ip, port, port']

/-- What starts with the signature is read as its four bytes say. -/
theorem exists_fixed (took : readProxyHeader.take input = .ok (source, rest)) :
    ∃ verCmd famProto high low after, input = proxySignature ++ [verCmd, famProto, high, low] ++ after := by
  obtain ⟨hdr, after, fixed, signed⟩ := Taker.bind_ok took
  obtain ⟨sixteen, rfl⟩ := Taker.exactly_ok fixed
  split at signed
  · cases signed
  rename_i signature
  have four : (hdr.drop 12).length = 4 := by
    rw [List.length_drop, sixteen]
  match last : hdr.drop 12, four with
  | [verCmd, famProto, high, low], _ =>
    refine ⟨verCmd, famProto, high, low, after, ?_⟩
    rw [← List.take_append_drop 12 hdr, last, not_not.mp signature]

/-- What is read of a header with its block. -/
theorem take_written (fits : block.length < 2 ^ 16) (version : verCmd &&& 0xF0 = 0x20) :
    readProxyHeader.take (proxySignature ++ [verCmd, famProto] ++ toBe16 block.length ++ block ++ rest) =
      (if verCmd &&& 0x0F = 0 then .pure none
        else if verCmd &&& 0x0F ≠ 1 then .fail .unsupportedVersion
        else ofExcept (proxySource famProto block) : Taker UInt8 ProxyProtoError (Option SocketAddr)).take rest := by
  have shape : proxySignature ++ [verCmd, famProto] ++ toBe16 block.length ++ block ++ rest =
      proxySignature ++ [verCmd, famProto, UInt8.ofNat (block.length / 256), UInt8.ofNat (block.length % 256)] ++
        (block ++ rest) := by
    simp [toBe16]
  rw [shape, take_header, if_neg (not_not.mpr version),
    Taker.take_bind (Taker.take_exactly (fromBe16_digits fits).symm)]

theorem take_source (command : verCmd = 0x21) (fits : block.length < 2 ^ 16)
    (found : proxySource famProto block = .ok source) :
    readProxyHeader.take (proxySignature ++ [verCmd, famProto] ++ toBe16 block.length ++ block ++ rest) =
      .ok (source, rest) := by
  subst command
  rw [take_written fits (by decide), if_neg (by decide), if_neg (by decide), found]
  rfl

theorem readProxyHeader_ok : readProxyHeader.take input = .ok (source, rest) ↔
    ∃ header, input = header ++ rest ∧ ProxyHeader header source := by
  constructor
  · intro took
    obtain ⟨verCmd, famProto, high, low, after, rfl⟩ := exists_fixed took
    rw [take_header] at took
    split at took
    · cases took
    rename_i version
    obtain ⟨probe, proxied⟩ := nibbles (not_not.mp version)
    obtain ⟨block, between, read, commanded⟩ := Taker.bind_ok took
    obtain ⟨length, rfl⟩ := Taker.exactly_ok read
    have sized : [high, low] = toBe16 block.length := by rw [length, toBe16_fromBe16]
    have fits : block.length < 2 ^ 16 := length ▸ fromBe16_lt
    split at commanded
    · rename_i command
      cases commanded
      refine ⟨_, ?_, @ProxyHeader.probe famProto _ fits⟩
      rw [← probe command, ← sized]
      simp
    split at commanded
    · cases commanded
    rename_i command
    unfold ofExcept at commanded
    split at commanded
    · rename_i found addressed
      cases commanded
      obtain ⟨src, dst, p₀, p₁, q₀, q₁, more, same, ⟨rfl, first, second, rfl⟩ | ⟨rfl, first, second, rfl⟩⟩ :=
        proxySource_ok.mp addressed
      all_goals
        have count := congrArg List.length same
        simp only [List.length_append, List.length_cons, List.length_nil, first, second] at count
      · have total : block.length = 12 + more.length := by omega
        refine ⟨_, ?_, @ProxyHeader.inet src dst more _ (fromBe16 q₀ q₁) first second fromBe16_lt (total ▸ fits)⟩
        rw [toBe16_fromBe16, toBe16_fromBe16, ← same, ← total, ← sized, proxied (not_not.mp command)]
        simp
      · have total : block.length = 36 + more.length := by omega
        refine ⟨_, ?_, @ProxyHeader.inet6 src dst more _ (fromBe16 q₀ q₁) first second fromBe16_lt (total ▸ fits)⟩
        rw [toBe16_fromBe16, toBe16_fromBe16, ← same, ← total, ← sized, proxied (not_not.mp command)]
        simp
    · cases commanded
  · rintro ⟨header, rfl, named⟩
    cases named with
    | probe fits => rw [take_written fits (by decide), if_pos (by decide), Taker.take_pure]
    | @inet src dst more srcPort dstPort first second port fits =>
      have total : (src ++ dst ++ toBe16 srcPort ++ toBe16 dstPort ++ more).length = 12 + more.length := by
        simp [first, second, toBe16]
        omega
      rw [← total] at fits ⊢
      refine take_source rfl fits (proxySource_ok.mpr ⟨src, dst, _, _, _, _, more, rfl, .inl ⟨rfl, first, second, ?_⟩⟩)
      rw [fromBe16_digits port]
    | @inet6 src dst more srcPort dstPort first second port fits =>
      have total : (src ++ dst ++ toBe16 srcPort ++ toBe16 dstPort ++ more).length = 36 + more.length := by
        simp [first, second, toBe16]
        omega
      rw [← total] at fits ⊢
      refine take_source rfl fits (proxySource_ok.mpr ⟨src, dst, _, _, _, _, more, rfl, .inr ⟨rfl, first, second, ?_⟩⟩)
      rw [fromBe16_digits port]

end Headers

/-- Exactly the headers of the protocol are accepted, each for the source it names, and nothing after the header
is touched; a header that has not arrived whole is refused. -/
theorem proxy_header_exact :
    (∀ input source rest, readProxyHeader.take input = .ok (source, rest) ↔
      ∃ header, input = header ++ rest ∧ ProxyHeader header source) ∧
    ∀ header source start, ProxyHeader header source → start <+: header → start ≠ header →
      ∃ e, readProxyHeader.take start = .error e := by
  refine ⟨fun input source rest => readProxyHeader_ok, fun header source start written cut short => ?_⟩
  exact Taker.take_torn (readProxyHeader_ok.mpr ⟨header, (List.append_nil header).symm, written⟩) cut short

/-- The connection of 10.0.0.42:12345, behind a proxy. -/
theorem proxy_header_exact_inet :
    let header := proxySignature ++ [0x21, 0x11] ++ toBe16 12 ++ [10, 0, 0, 42, 192, 168, 1, 1, 48, 57, 26, 11]
    readProxyHeader.take (header ++ ascii "NICK") = .ok (some (.v4 [10, 0, 0, 42] 12345), ascii "NICK") ∧
      ∃ e, readProxyHeader.take (header.take 20) = .error e := by
  intro header
  have written : ProxyHeader header (some (.v4 [10, 0, 0, 42] 12345)) :=
    @ProxyHeader.inet [10, 0, 0, 42] [192, 168, 1, 1] [] 12345 6667 rfl rfl (by decide) (by decide)
  refine ⟨(proxy_header_exact.1 _ _ _).mpr ⟨header, rfl, written⟩, ?_⟩
  exact proxy_header_exact.2 header _ _ written (List.take_prefix 20 header) (by decide +kernel)

end RndRust.Irc.Server
