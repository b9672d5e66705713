/-
  GigabitTcp.Stack.Regions — which array cells the ICMP and UDP receive paths touch.

  The model's arrays are unbounded, so an index that the C++ array does not have shows up as
  nothing worse than a cell of its own.  Here the two receive paths are written a second
  time, loop for loop as in the source, with every access to `frame_buf` and `csum_buf` and
  every store to `buffer` logged.  Without the log they are the functions of the model
  (`val_icmpRxLogged`, `val_receiveUdpLogged`), so the log is about these functions.

  Main results:
    * `icmpRx_within_iff`, `receiveUdp_within_iff` — the exact lengths that stay in bounds,
    * `receive_within_iff` — the same for a whole received frame,
    * `icmp_echo_leaves_region` — an echo request of 260 bytes.
-/
import GigabitTcp.Stack.Pass
import GigabitTcp.Hw.Logged

namespace GigabitTcp

open Hw Logged

/-! ## §1. The arrays. -/

/-- The arrays of the two receive paths; `buffer` appears twice, once for each writer. -/
inductive Arr where
  | frameBuf
  | csumBuf
  /-- `buffer` as `icmp_rx_process` writes it. -/
  | scratch
  /-- `buffer` as the UDP payload copy writes it. -/
  | txUdp
  deriving Repr, DecidableEq

/-- The cells that belong to the array, or to the writer's own region of `buffer`. -/
def Arr.bounds : Arr → Nat × Nat
  | .frameBuf => (0, frameBufWords)
  | .csumBuf => (0, 256)
  | .scratch => (txScratchBase, txScratchBase + txScratchSize)
  | .txUdp => (txUdpBase, txUdpBase + txUdpSize)

/-! ## §2. The ICMP path. -/

/-- `icmp_checksum`, reading `csum_buf`. -/
def icmpChecksumLogged (csumBuf : Mem U8) (len : Nat) : Logged Arr U16 := do
  let sum ← loop (fun i sum => do
    let b0 ← load .csumBuf csumBuf (i * 2)
    let b1 ← load .csumBuf csumBuf (i * 2 + 1)
    pure (sum + (be16 b0 b1).setWidth 32)) (List.range (len / 2)) 0
  if len % 2 = 1 then
    let b ← load .csumBuf csumBuf (len - 1)
    pure (~~~ (foldCarries (sum + (b.setWidth 32 <<< 8))).setWidth 16)
  else pure (~~~ (foldCarries sum).setWidth 16)

/-- `csum_buf[i*4 + 0..3] = bytes of buffer[tx_base + i]`. -/
def icmpUnpackLogged (buffer : Mem U32) (i : Nat) (csumBuf : Mem U8) : Logged Arr (Mem U8) := do
  let c ← store .csumBuf csumBuf (i * 4) (wordByte (buffer (txScratchBase + i)) 0)
  let c ← store .csumBuf c (i * 4 + 1) (wordByte (buffer (txScratchBase + i)) 1)
  let c ← store .csumBuf c (i * 4 + 2) (wordByte (buffer (txScratchBase + i)) 2)
  store .csumBuf c (i * 4 + 3) (wordByte (buffer (txScratchBase + i)) 3)

/-- The echo message and its checksum. -/
def icmpEchoMessageLogged (csumBuf : Mem U8) (buffer frameBuf : Mem U32) (ipRx : IpRx) :
    Logged Arr (Mem U32) := do
  let buffer ← loop (fun i b => do
    let w ← load .frameBuf frameBuf (5 + i)
    store .scratch b (txScratchBase + i) w) (List.range (icmpWords ipRx)) buffer
  let w0 ← load .frameBuf frameBuf 5
  let buffer ← store .scratch buffer txScratchBase
    ((w0 &&& 0x00FFFFFF#32) ||| (icmpEchoReply.setWidth 32 <<< 24))
  let buffer ← store .scratch buffer txScratchBase (buffer txScratchBase &&& 0xFFFF0000#32)
  let csumBuf ← loop (icmpUnpackLogged buffer) (List.range (icmpWords ipRx)) csumBuf
  let csum ← icmpChecksumLogged csumBuf (icmpTotalLen ipRx).toNat
  store .scratch buffer txScratchBase
    ((buffer txScratchBase &&& 0xFFFF0000#32) ||| csum.setWidth 32)

/-- `icmp_rx_process`; `csumBuf` is what the local array holds at first. -/
def icmpRxLogged (csumBuf : Mem U8) (resetN : Bool) (ipRx : IpRx) (frameBuf : Mem U32)
    (sh : Shared) : Logged Arr Shared :=
  if !resetN || !ipRx.valid || ipRx.protocol != ipProtoIcmp then pure sh
  else do
    let h0 ← load .frameBuf frameBuf 5
    let _ ← load .frameBuf frameBuf 6
    if wordByte h0 0 == icmpEchoRequest && wordByte h0 1 == 0 then
      let buffer ← icmpEchoMessageLogged csumBuf sh.buffer frameBuf ipRx
      let buffer ← loop (fun i b => store .scratch b (txScratchBase + 5 + i) (b (txScratchBase + i)))
        (List.range (icmpWords ipRx)).reverse buffer
      let hdr := ipHeader (ipHeaderBytes + icmpTotalLen ipRx) 0 128 ipProtoIcmp boardIpBytes
        (wordBytes 4 ipRx.srcIp)
      let buffer ← loop (fun i b => store .scratch b (txScratchBase + i) (Mem.wordOf hdr i))
        (List.range 5) buffer
      let r := replyMac { sh with buffer } ipRx.srcIp
      pure (r.2.issue r.1 ethertypeIpv4 txScratchBase (ipHeaderBytes + icmpTotalLen ipRx))
    else pure sh

/-! ### Without the log. -/

theorem val_icmpChecksumLogged (csumBuf : Mem U8) (len : Nat) :
    (icmpChecksumLogged csumBuf len).val = icmpChecksum csumBuf len := by
  unfold icmpChecksumLogged icmpChecksum byteChecksum be16Words
  rw [List.foldl_map, val_bind, val_loop]
  split <;> rfl

/-- The unpacking loop copies the bytes of the message. -/
theorem val_unpack (buffer : Mem U32) (csumBuf : Mem U8) : ∀ n : Nat,
    (loop (icmpUnpackLogged buffer) (List.range n) csumBuf).val
      = csumBuf.fill 0 (n * 4) (buffer.byteAt txScratchBase)
  | 0 => by
      rw [Nat.zero_mul, Mem.fill_zero]
      rfl
  | n + 1 => by
      have ih := val_unpack buffer csumBuf n
      rw [val_loop] at ih ⊢
      rw [List.range_succ, List.foldl_append, ih]
      have hbyte : ∀ k, k < 4 → wordByte (buffer (txScratchBase + n)) k
          = buffer.byteAt txScratchBase (n * 4 + k) := by
        intro k hk
        unfold Mem.byteAt
        rw [show (n * 4 + k) / 4 = n by omega, show (n * 4 + k) % 4 = k by omega]
      show (((((csumBuf.fill 0 (n * 4) _).set (n * 4) _).set (n * 4 + 1) _).set (n * 4 + 2) _).set
        (n * 4 + 3) _) = _
      rw [hbyte 0 (by omega), hbyte 1 (by omega), hbyte 2 (by omega), hbyte 3 (by omega),
        show (n + 1) * 4 = n * 4 + 1 + 1 + 1 + 1 by omega, Mem.fill_succ, Mem.fill_succ,
        Mem.fill_succ, Mem.fill_succ]
      simp only [Nat.zero_add, Nat.add_zero]

theorem val_icmpEchoMessageLogged (csumBuf : Mem U8) (buffer frameBuf : Mem U32) (ipRx : IpRx) :
    (icmpEchoMessageLogged csumBuf buffer frameBuf ipRx).val
      = icmpEchoMessage buffer frameBuf ipRx := by
  unfold icmpEchoMessageLogged icmpEchoMessage
  simp only [val_bind, val_load, val_store, val_copyLoop, val_unpack, val_icmpChecksumLogged]
  -- the checksum reads the unpacked bytes, and only these
  have hcsum : ∀ b : Mem U32, icmpChecksum (csumBuf.fill 0 (icmpWords ipRx * 4)
      (b.byteAt txScratchBase)) (icmpTotalLen ipRx).toNat
        = icmpChecksum (b.byteAt txScratchBase) (icmpTotalLen ipRx).toNat := by
    intro b
    refine byteChecksum_congr (fun k hk => ?_) 0
    unfold icmpWords
    exact Mem.fill_inside _ _ ⟨Nat.zero_le k, by omega⟩
  rw [hcsum]

/-- **The logged ICMP path is `icmp_rx_process`.** -/
theorem val_icmpRxLogged (csumBuf : Mem U8) (resetN : Bool) (ipRx : IpRx) (frameBuf : Mem U32)
    (sh : Shared) :
    (icmpRxLogged csumBuf resetN ipRx frameBuf sh).val = icmpRxProcess resetN ipRx frameBuf sh := by
  unfold icmpRxLogged icmpRxProcess
  by_cases hskip : (!resetN || !ipRx.valid || ipRx.protocol != ipProtoIcmp) = true
  · rw [if_pos hskip, if_pos hskip]
    rfl
  · rw [if_neg hskip, if_neg hskip, val_bind, val_bind, val_load]
    by_cases hecho : icmpIsEcho frameBuf = true
    · rw [if_pos hecho]
      have hif : (wordByte (frameBuf 5) 0 == icmpEchoRequest && wordByte (frameBuf 5) 1 == 0)
          = true := hecho
      rw [if_pos hif]
      simp only [val_bind, val_icmpEchoMessageLogged, val_fillLoop,
        val_shiftLoop _ _ txScratchBase 5 _ (by omega)]
      rfl
    · rw [if_neg hecho]
      have hif : ¬ (wordByte (frameBuf 5) 0 == icmpEchoRequest && wordByte (frameBuf 5) 1 == 0)
          = true := hecho
      rw [if_neg hif]
      rfl

/-! ### The accesses. -/

theorem log_icmpUnpackLogged (buffer : Mem U32) (i : Nat) (csumBuf : Mem U8) :
    (icmpUnpackLogged buffer i csumBuf).log
      = [(.csumBuf, i * 4), (.csumBuf, i * 4 + 1), (.csumBuf, i * 4 + 2), (.csumBuf, i * 4 + 3)] :=
  rfl

/-- The checksum stays below the length of the message. -/
theorem within_icmpChecksumLogged (csumBuf : Mem U8) {len : Nat} (h : len ≤ 256) :
    Within Arr.bounds (icmpChecksumLogged csumBuf len).log := by
  unfold icmpChecksumLogged
  rw [log_bind, within_append]
  constructor
  · rw [log_loop (g := fun i => [(Arr.csumBuf, i * 2), (Arr.csumBuf, i * 2 + 1)])
      (fun _ _ => rfl), within_flatMap]
    intro i hi
    rw [List.mem_range] at hi
    simp only [within_cons, within_nil, and_true]
    unfold Arr.bounds
    dsimp only
    omega
  · split
    · simp only [log_bind, log_load, log_pure, List.append_nil, within_cons, within_nil, and_true]
      unfold Arr.bounds
      dsimp only
      omega
    · exact within_nil

theorem within_icmpUnpack (buffer : Mem U32) (csumBuf : Mem U8) {n : Nat} (h : n ≤ 64) :
    Within Arr.bounds (loop (icmpUnpackLogged buffer) (List.range n) csumBuf).log := by
  rw [log_loop (log_icmpUnpackLogged buffer), within_flatMap]
  intro i hi
  rw [List.mem_range] at hi
  simp only [within_cons, within_nil, and_true]
  unfold Arr.bounds
  dsimp only
  omega

theorem within_copyLoop (frameBuf buffer : Mem U32) (d : Arr) (src base n : Nat) :
    Within Arr.bounds (loop (fun i b => do
        let w ← load .frameBuf frameBuf (src + i)
        store d b (base + i) w) (List.range n) buffer).log
      ↔ ∀ i, i < n → src + i < frameBufWords ∧ d.bounds.1 ≤ base + i ∧ base + i < d.bounds.2 := by
  rw [log_loop (g := fun i => [(Arr.frameBuf, src + i), (d, base + i)]) (fun _ _ => rfl),
    within_flatMap]
  simp only [within_cons, within_nil, and_true, List.mem_range]
  unfold Arr.bounds
  simp only [Nat.zero_le, true_and]

theorem within_storeLoop (a : Arr) (base : Nat) (f : Nat → Mem U32 → U32) (is : List Nat)
    (buffer : Mem U32) :
    Within Arr.bounds (loop (fun i b => store a b (base + i) (f i b)) is buffer).log
      ↔ ∀ i ∈ is, a.bounds.1 ≤ base + i ∧ base + i < a.bounds.2 := by
  rw [log_loop (g := fun i => [(a, base + i)]) (fun _ _ => rfl), within_flatMap]
  simp only [within_cons, within_nil, and_true]

/-- A message of at most 59 words is copied and summed inside the arrays. -/
theorem within_icmpEchoMessageLogged (csumBuf : Mem U8) (buffer frameBuf : Mem U32) {ipRx : IpRx}
    (h : icmpWords ipRx ≤ 59) :
    Within Arr.bounds (icmpEchoMessageLogged csumBuf buffer frameBuf ipRx).log := by
  have hlen : (icmpTotalLen ipRx).toNat ≤ 256 := by
    unfold icmpWords at h
    omega
  have hfirst : (Arr.scratch.bounds).1 ≤ txScratchBase ∧ txScratchBase < (Arr.scratch.bounds).2 := by
    decide
  have hread : (Arr.frameBuf.bounds).1 ≤ 5 ∧ 5 < (Arr.frameBuf.bounds).2 := by decide
  unfold icmpEchoMessageLogged
  simp only [log_bind, within_append, log_load, log_store, within_cons, within_nil, and_true]
  refine ⟨?_, hread, hfirst, hfirst, within_icmpUnpack _ _ (by omega),
    within_icmpChecksumLogged _ hlen, hfirst⟩
  rw [within_copyLoop]
  intro i hi
  show 5 + i < 400 ∧ 320 ≤ 320 + i ∧ 320 + i < 384
  omega

/-- `icmp_rx_process` answers this frame. -/
def IcmpAnswers (resetN : Bool) (ipRx : IpRx) (frameBuf : Mem U32) : Prop :=
  resetN = true ∧ ipRx.valid = true ∧ ipRx.protocol = ipProtoIcmp ∧ icmpIsEcho frameBuf = true

/-- The lengths with which an echo reply fits its region. -/
theorem icmpWords_le_iff (ipRx : IpRx) :
    icmpWords ipRx ≤ 59 ↔ 20 ≤ ipRx.totalLen.toNat ∧ ipRx.totalLen.toNat ≤ 256 := by
  have hlt : ipRx.totalLen.toNat < 2 ^ 16 := ipRx.totalLen.isLt
  have hsub : (icmpTotalLen ipRx).toNat = (2 ^ 16 - 20 + ipRx.totalLen.toNat) % 2 ^ 16 := by
    unfold icmpTotalLen
    rw [BitVec.toNat_sub]
    rfl
  unfold icmpWords
  omega

/-- **Bounds of the ICMP path**: the accesses stay inside the arrays and the scratch region
exactly for replies that fit the region. -/
theorem icmpRx_within_iff (csumBuf : Mem U8) (resetN : Bool) (ipRx : IpRx) (frameBuf : Mem U32)
    (sh : Shared) :
    Within Arr.bounds (icmpRxLogged csumBuf resetN ipRx frameBuf sh).log
      ↔ (IcmpAnswers resetN ipRx frameBuf →
        20 ≤ ipRx.totalLen.toNat ∧ ipRx.totalLen.toNat ≤ 256) := by
  have hanswers : IcmpAnswers resetN ipRx frameBuf
      ↔ ¬ (!resetN || !ipRx.valid || ipRx.protocol != ipProtoIcmp) = true
        ∧ icmpIsEcho frameBuf = true := by
    unfold IcmpAnswers
    simp [and_assoc]
  rw [hanswers]
  unfold icmpRxLogged
  by_cases hskip : (!resetN || !ipRx.valid || ipRx.protocol != ipProtoIcmp) = true
  · rw [if_pos hskip]
    exact ⟨fun _ h => absurd hskip h.1, fun _ => within_nil⟩
  · rw [if_neg hskip, log_bind, log_bind, within_append, within_append]
    have hhdr : ∀ i, i < 400 → Within Arr.bounds [(Arr.frameBuf, i)] := by
      intro i hi
      rw [within_cons]
      exact ⟨⟨Nat.zero_le i, hi⟩, within_nil⟩
    rw [log_load, log_load, val_load]
    by_cases hecho : icmpIsEcho frameBuf = true
    · rw [if_pos (show (wordByte (frameBuf 5) 0 == icmpEchoRequest
        && wordByte (frameBuf 5) 1 == 0) = true from hecho), ← icmpWords_le_iff]
      simp only [log_bind, within_append, log_pure, within_nil, and_true, within_storeLoop]
      constructor
      · -- the last word of the shifted message is the highest store
        rintro ⟨-, -, -, hshift, -⟩ -
        by_contra hbig
        have hlast := hshift (icmpWords ipRx - 1) (by simp; omega)
        have hbound : txScratchBase + 5 + (icmpWords ipRx - 1) < 384 := hlast.2
        have hbase : txScratchBase = 320 := rfl
        omega
      · intro h
        -- at most 59 words behind the IP header, and the region has 64
        have hfits := h ⟨hskip, hecho⟩
        refine ⟨hhdr 5 (by omega), hhdr 6 (by omega), within_icmpEchoMessageLogged _ _ _ hfits, ?_, ?_⟩
        · intro i hi
          simp only [List.mem_reverse, List.mem_range] at hi
          show 320 ≤ 320 + 5 + i ∧ 320 + 5 + i < 384
          omega
        · intro i hi
          rw [List.mem_range] at hi
          show 320 ≤ 320 + i ∧ 320 + i < 384
          omega
    · rw [if_neg (show ¬ (wordByte (frameBuf 5) 0 == icmpEchoRequest
        && wordByte (frameBuf 5) 1 == 0) = true from hecho)]
      exact ⟨fun _ h => absurd h.2 hecho,
        fun _ => ⟨hhdr 5 (by omega), hhdr 6 (by omega), within_nil⟩⟩

/-! ## §3. The UDP path. -/

/-- `udp_rx_process`. -/
def udpRxLogged (resetN : Bool) (ipRx : IpRx) (frameBuf : Mem U32) : Logged Arr UdpRx :=
  if !resetN then pure {}
  else if !ipRx.valid then pure {}
  else if ipRx.protocol ≠ ipProtoUdp then pure {}
  else do
    let h0 ← load .frameBuf frameBuf 5
    let h1 ← load .frameBuf frameBuf 6
    let f : UdpRx :=
      { srcPort := be16 (wordByte h0 0) (wordByte h0 1), dstPort := be16 (wordByte h0 2) (wordByte h0 3)
        length := be16 (wordByte h1 0) (wordByte h1 1)
        checksum := be16 (wordByte h1 2) (wordByte h1 3) }
    if f.dstPort ≠ udpPort then pure f
    else pure { f with
      payloadLen := f.length - udpHeaderBytes, bufBase := ipRx.bufBase, valid := true }

/-- The payload copy. -/
def captureUdpLogged (s : UdpEcho) (ipRx : IpRx) (udpRx : UdpRx) : Logged Arr UdpEcho := do
  let buffer ← loop (fun i b => do
    let w ← load .frameBuf s.frameBuf (7 + i)
    store .txUdp b (txUdpBase + 7 + i) w) (List.range (udpCopyWords udpRx)) s.shared.buffer
  pure { s with
    shared.buffer := buffer
    request :=
      { dataReceived := true, rxUdpLen := udpRx.length, rxIpLen := ipRx.totalLen
        rxSrcPort := udpRx.srcPort, rxSrcIp := ipRx.srcIp } }

/-- The UDP branch of the dispatch. -/
def receiveUdpLogged (s : UdpEcho) (i : PassIn) (ipRx : IpRx) : Logged Arr UdpEcho := do
  let udpRx ← udpRxLogged i.resetN ipRx s.frameBuf
  if udpRx.valid then
    if udpRx.dstPort = dhcpClientPort then
      pure { s with dhcp := dhcpRxProcess i.resetN i.uninit udpRx s.frameBuf s.dhcp }
    else captureUdpLogged s ipRx udpRx
  else pure s

theorem val_udpRxLogged (resetN : Bool) (ipRx : IpRx) (frameBuf : Mem U32) :
    (udpRxLogged resetN ipRx frameBuf).val = udpRxProcess resetN ipRx frameBuf := by
  unfold udpRxLogged udpRxProcess
  by_cases hrst : (!resetN) = true
  · rw [if_pos hrst, if_pos hrst]
    rfl
  · rw [if_neg hrst, if_neg hrst]
    by_cases hvalid : (!ipRx.valid) = true
    · rw [if_pos hvalid, if_pos hvalid]
      rfl
    · rw [if_neg hvalid, if_neg hvalid]
      by_cases hproto : ipRx.protocol ≠ ipProtoUdp
      · rw [if_pos hproto, if_pos hproto]
        rfl
      · rw [if_neg hproto, if_neg hproto, val_bind, val_bind, val_load, val_load]
        by_cases hport : (udpFields frameBuf).dstPort ≠ udpPort
        · exact (congrArg val (if_pos hport)).trans (if_pos hport).symm
        · exact (congrArg val (if_neg hport)).trans (if_neg hport).symm

theorem within_udpRxLogged (resetN : Bool) (ipRx : IpRx) (frameBuf : Mem U32) :
    Within Arr.bounds (udpRxLogged resetN ipRx frameBuf).log := by
  have hhdr : ∀ i, i < 400 → Within Arr.bounds [(Arr.frameBuf, i)] := by
    intro i hi
    rw [within_cons]
    exact ⟨⟨Nat.zero_le i, hi⟩, within_nil⟩
  unfold udpRxLogged
  split
  · exact within_nil
  · split
    · exact within_nil
    · split
      · exact within_nil
      · rw [log_bind, log_bind, within_append, within_append]
        refine ⟨hhdr 5 (by omega), hhdr 6 (by omega), ?_⟩
        dsimp only
        split <;> exact within_nil

/-- **The logged UDP path is the one of the pass.** -/
theorem val_receiveUdpLogged (s : UdpEcho) (i : PassIn) (ipRx : IpRx) :
    (receiveUdpLogged s i ipRx).val = s.receiveUdp i ipRx := by
  unfold receiveUdpLogged UdpEcho.receiveUdp
  rw [val_bind, val_udpRxLogged]
  dsimp only
  split
  · split
    · rfl
    · unfold captureUdpLogged UdpEcho.captureUdp
      rw [val_bind, val_copyLoop]
      rfl
  · rfl

/-- The lengths whose payload fits behind the headers in the TX region. -/
theorem udpCopyWords_le_iff {resetN : Bool} {ipRx : IpRx} {frameBuf : Mem U32}
    (h : (udpRxProcess resetN ipRx frameBuf).valid = true) :
    udpCopyWords (udpRxProcess resetN ipRx frameBuf) ≤ 249
      ↔ 8 ≤ (udpRxProcess resetN ipRx frameBuf).length.toNat
        ∧ (udpRxProcess resetN ipRx frameBuf).length.toNat ≤ 1004 := by
  have hlen : (udpRxProcess resetN ipRx frameBuf).payloadLen
      = (udpRxProcess resetN ipRx frameBuf).length - udpHeaderBytes := by
    revert h
    unfold udpRxProcess
    dsimp only
    split_ifs <;> intro h
    all_goals first | rfl | cases h
  have hlt : (udpRxProcess resetN ipRx frameBuf).length.toNat < 2 ^ 16 :=
    (udpRxProcess resetN ipRx frameBuf).length.isLt
  have hsub : (udpRxProcess resetN ipRx frameBuf).payloadLen.toNat
      = (2 ^ 16 - 8 + (udpRxProcess resetN ipRx frameBuf).length.toNat) % 2 ^ 16 := by
    rw [hlen, BitVec.toNat_sub]
    rfl
  unfold udpCopyWords
  omega

/-- **Bounds of the UDP path**: the copy stays inside `frame_buf` and the TX region exactly
for UDP lengths from 8 to 1004. -/
theorem receiveUdp_within_iff (s : UdpEcho) (i : PassIn) (ipRx : IpRx) :
    Within Arr.bounds (receiveUdpLogged s i ipRx).log
      ↔ ((udpRxProcess i.resetN ipRx s.frameBuf).valid = true →
        8 ≤ (udpRxProcess i.resetN ipRx s.frameBuf).length.toNat
          ∧ (udpRxProcess i.resetN ipRx s.frameBuf).length.toNat ≤ 1004) := by
  unfold receiveUdpLogged
  rw [log_bind, val_udpRxLogged, within_append]
  by_cases hvalid : (udpRxProcess i.resetN ipRx s.frameBuf).valid = true
  · -- the port filter lets 8080 through only, so this is the payload copy
    have hport : ¬ (udpRxProcess i.resetN ipRx s.frameBuf).dstPort = dhcpClientPort := by
      rw [udpRxProcess_valid hvalid]
      decide
    rw [if_pos hvalid, if_neg hport, ← udpCopyWords_le_iff hvalid]
    unfold captureUdpLogged
    rw [log_bind, within_append, within_copyLoop]
    constructor
    · rintro ⟨-, hcopy, -⟩ -
      by_contra hbig
      -- a copy that does not fit leaves the TX region with its last word
      have hlast := (hcopy (udpCopyWords (udpRxProcess i.resetN ipRx s.frameBuf) - 1) (by omega)).2.2
      have hbound : 512 + 7 + (udpCopyWords (udpRxProcess i.resetN ipRx s.frameBuf) - 1) < 768 := hlast
      omega
    · intro h
      have hfits := h hvalid
      refine ⟨within_udpRxLogged _ _ _, fun k hk => ?_, within_nil⟩
      show 7 + k < 400 ∧ 512 ≤ 512 + 7 + k ∧ 512 + 7 + k < 768
      omega
  · rw [if_neg hvalid]
    exact ⟨fun _ h => absurd h hvalid, fun _ => ⟨within_udpRxLogged _ _ _, within_nil⟩⟩

/-! ## §4. A received frame. -/

/-- `ip_rx_process`: it loads the five words of the header. -/
def ipRxLogged (resetN : Bool) (macRx : MacRx) (frameBuf : Mem U32) : Logged Arr IpRx :=
  if !resetN then pure {}
  else if !macRx.valid then pure {}
  else if macRx.ethertype ≠ ethertypeIpv4 then pure {}
  else do
    let _ ← loop (fun k _ => load .frameBuf frameBuf k) (List.range 5) 0
    pure (ipRxProcess resetN macRx frameBuf)

/-- Staging. -/
def stageLogged (s : UdpEcho) (nwords : Nat) : Logged Arr UdpEcho := do
  let frameBuf ← loop (fun k b => store .frameBuf b (0 + k) (s.frameFifo.getD k 0))
    (List.range (min nwords frameBufWords)) s.frameBuf
  pure { s with frameBuf, frameFifo := s.frameFifo.drop nwords }

/-- The IPv4 branch of the dispatch; the IGMP and TCP handlers are not logged. -/
def receiveIpLogged (csumBuf : Mem U8) (s : UdpEcho) (i : PassIn) (ipRx : IpRx) :
    Logged Arr UdpEcho :=
  if !ipRx.valid then pure s
  else if ipRx.protocol = ipProtoIcmp then do
    let shared ← icmpRxLogged csumBuf i.resetN ipRx s.frameBuf s.shared
    pure { s with shared }
  else if ipRx.protocol = ipProtoUdp then receiveUdpLogged s i ipRx
  else pure (s.receiveIp i ipRx)

/-- Staging and dispatch of a frame; the ARP handler is not logged. -/
def receiveLogged (csumBuf : Mem U8) (s : UdpEcho) (i : PassIn) (rx : MacRx) :
    Logged Arr UdpEcho :=
  if rx.valid then do
    let s ← stageLogged s rx.nwords.toNat
    if rx.ethertype = ethertypeArp then pure (s.dispatch i rx)
    else if rx.ethertype = ethertypeIpv4 then do
      let ipRx ← ipRxLogged i.resetN rx s.frameBuf
      receiveIpLogged csumBuf s i ipRx
    else pure s
  else pure s

theorem val_ipRxLogged (resetN : Bool) (macRx : MacRx) (frameBuf : Mem U32) :
    (ipRxLogged resetN macRx frameBuf).val = ipRxProcess resetN macRx frameBuf := by
  unfold ipRxLogged
  split_ifs with hreset hvalid hether
  · unfold ipRxProcess
    rw [if_pos hreset]
    rfl
  · unfold ipRxProcess
    rw [if_neg hreset, if_pos hvalid]
    rfl
  · unfold ipRxProcess
    rw [if_neg hreset, if_neg hvalid, if_pos hether]
    rfl
  · rw [val_bind]
    rfl

theorem within_ipRxLogged (resetN : Bool) (macRx : MacRx) (frameBuf : Mem U32) :
    Within Arr.bounds (ipRxLogged resetN macRx frameBuf).log := by
  unfold ipRxLogged
  split_ifs
  · exact within_nil
  · exact within_nil
  · exact within_nil
  · rw [log_bind, within_append, log_loop (g := fun k => [(Arr.frameBuf, k)]) (fun _ _ => rfl),
      within_flatMap]
    refine ⟨fun k hk => ?_, within_nil⟩
    rw [List.mem_range] at hk
    rw [within_cons]
    refine ⟨⟨Nat.zero_le k, ?_⟩, within_nil⟩
    show k < 400
    omega

theorem val_stageLogged (s : UdpEcho) (nwords : Nat) :
    (stageLogged s nwords).val = s.stage nwords := by
  unfold stageLogged UdpEcho.stage
  rw [val_bind, val_fillLoop]
  rfl

theorem within_stageLogged (s : UdpEcho) (nwords : Nat) :
    Within Arr.bounds (stageLogged s nwords).log := by
  unfold stageLogged
  rw [log_bind, within_append, log_loop (g := fun k => [(Arr.frameBuf, 0 + k)]) (fun _ _ => rfl),
    within_flatMap]
  refine ⟨fun k hk => ?_, within_nil⟩
  have hk' : k < 400 := (List.mem_range.mp hk).trans_le (Nat.min_le_right _ _)
  rw [within_cons]
  refine ⟨⟨Nat.zero_le _, ?_⟩, within_nil⟩
  show 0 + k < 400
  omega

theorem val_receiveIpLogged (csumBuf : Mem U8) (s : UdpEcho) (i : PassIn) (ipRx : IpRx) :
    (receiveIpLogged csumBuf s i ipRx).val = s.receiveIp i ipRx := by
  unfold receiveIpLogged
  split_ifs with hip hicmp hudp
  · unfold UdpEcho.receiveIp
    rw [if_pos hip]
    rfl
  · rw [val_bind, val_icmpRxLogged]
    unfold UdpEcho.receiveIp
    rw [if_neg hip, if_pos hicmp]
    rfl
  · rw [val_receiveUdpLogged]
    unfold UdpEcho.receiveIp
    rw [if_neg hip, if_neg hicmp, if_neg (by rw [hudp]; decide), if_neg (by rw [hudp]; decide),
      if_pos hudp]
  · rfl

/-- **The logged reception is the one of the pass.** -/
theorem val_receiveLogged (csumBuf : Mem U8) (s : UdpEcho) (i : PassIn) (rx : MacRx) :
    (receiveLogged csumBuf s i rx).val = s.receive i rx := by
  unfold receiveLogged UdpEcho.receive
  by_cases hvalid : rx.valid = true
  · rw [if_pos hvalid, if_pos hvalid, val_bind, val_stageLogged]
    by_cases harp : rx.ethertype = ethertypeArp
    · rw [if_pos harp]
      rfl
    · unfold UdpEcho.dispatch
      rw [if_neg harp, if_neg harp]
      by_cases hip : rx.ethertype = ethertypeIpv4
      · rw [if_pos hip, if_pos hip, val_bind, val_ipRxLogged, val_receiveIpLogged]
      · rw [if_neg hip, if_neg hip]
        rfl
  · rw [if_neg hvalid, if_neg hvalid]
    rfl

/-- The lengths that a received frame claims stay in bounds: an echo request has 20 to 256
bytes of IP, a datagram for port 8080 has 8 to 1004 bytes of UDP. -/
def LengthsFit (s : UdpEcho) (i : PassIn) (rx : MacRx) : Prop :=
  let frameBuf := (s.stage rx.nwords.toNat).frameBuf
  let ipRx := ipRxProcess i.resetN rx frameBuf
  let udpRx := udpRxProcess i.resetN ipRx frameBuf
  (IcmpAnswers i.resetN ipRx frameBuf → 20 ≤ ipRx.totalLen.toNat ∧ ipRx.totalLen.toNat ≤ 256)
    ∧ (udpRx.valid = true → 8 ≤ udpRx.length.toNat ∧ udpRx.length.toNat ≤ 1004)

theorem receiveIp_within_iff (csumBuf : Mem U8) (s : UdpEcho) (i : PassIn) (ipRx : IpRx) :
    Within Arr.bounds (receiveIpLogged csumBuf s i ipRx).log
      ↔ (IcmpAnswers i.resetN ipRx s.frameBuf →
          20 ≤ ipRx.totalLen.toNat ∧ ipRx.totalLen.toNat ≤ 256)
        ∧ ((udpRxProcess i.resetN ipRx s.frameBuf).valid = true →
          8 ≤ (udpRxProcess i.resetN ipRx s.frameBuf).length.toNat
            ∧ (udpRxProcess i.resetN ipRx s.frameBuf).length.toNat ≤ 1004) := by
  unfold receiveIpLogged
  by_cases hip : (!ipRx.valid) = true
  · rw [if_pos hip]
    have hno : ¬ ipRx.valid = true := by simpa using hip
    exact ⟨fun _ => ⟨fun h => absurd h.2.1 hno, fun h => absurd (udpRxProcess_packet h).1 hno⟩,
      fun _ => within_nil⟩
  · rw [if_neg hip]
    by_cases hicmp : ipRx.protocol = ipProtoIcmp
    · rw [if_pos hicmp, log_bind, within_append, icmpRx_within_iff]
      constructor
      · rintro ⟨h, -⟩
        refine ⟨h, fun hv => ?_⟩
        -- one packet is not ICMP and UDP at once
        have hboth := (udpRxProcess_packet hv).2
        rw [hicmp] at hboth
        exact absurd hboth (by decide)
      · exact fun h => ⟨h.1, within_nil⟩
    · rw [if_neg hicmp]
      by_cases hproto : ipRx.protocol = ipProtoUdp
      · rw [if_pos hproto, receiveUdp_within_iff]
        exact ⟨fun h => ⟨fun ha => absurd ha.2.2.1 hicmp, h⟩, fun h => h.2⟩
      · rw [if_neg hproto]
        exact ⟨fun _ => ⟨fun ha => absurd ha.2.2.1 hicmp,
            fun hv => absurd (udpRxProcess_packet hv).2 hproto⟩,
          fun _ => within_nil⟩

/-- A frame that is not IPv4 claims no lengths. -/
theorem lengthsFit_of_not_ip (s : UdpEcho) (i : PassIn) {rx : MacRx}
    (h : rx.ethertype ≠ ethertypeIpv4) : LengthsFit s i rx := by
  have hinvalid : (ipRxProcess i.resetN rx (s.stage rx.nwords.toNat).frameBuf).valid = false := by
    unfold ipRxProcess
    split_ifs <;> rfl
  unfold LengthsFit
  constructor
  · intro ha
    have hip := ha.2.1
    rw [hinvalid] at hip
    cases hip
  · intro hv
    have hip := (udpRxProcess_packet hv).1
    rw [hinvalid] at hip
    cases hip

/-- A received frame is processed inside the arrays exactly when its lengths fit. -/
theorem within_receiveLogged_iff (csumBuf : Mem U8) (s : UdpEcho) (i : PassIn) (rx : MacRx) :
    Within Arr.bounds (receiveLogged csumBuf s i rx).log ↔ (rx.valid = true → LengthsFit s i rx) := by
  unfold receiveLogged
  by_cases hvalid : rx.valid = true
  · rw [if_pos hvalid, log_bind, within_append, val_stageLogged]
    have hstage := within_stageLogged s rx.nwords.toNat
    by_cases harp : rx.ethertype = ethertypeArp
    · rw [if_pos harp]
      have hfit := lengthsFit_of_not_ip s i (by rw [harp]; decide)
      exact ⟨fun _ _ => hfit, fun _ => ⟨hstage, within_nil⟩⟩
    · rw [if_neg harp]
      by_cases hip : rx.ethertype = ethertypeIpv4
      · rw [if_pos hip, log_bind, within_append, val_ipRxLogged, receiveIp_within_iff]
        exact ⟨fun h _ => h.2.2, fun h => ⟨hstage, within_ipRxLogged _ _ _, h hvalid⟩⟩
      · rw [if_neg hip]
        exact ⟨fun _ _ => lengthsFit_of_not_ip s i hip, fun _ => ⟨hstage, within_nil⟩⟩
  · rw [if_neg hvalid]
    exact ⟨fun _ h => absurd h hvalid, fun _ => within_nil⟩

/-- **Bounds of a received frame**: in every state and for every frame, the ICMP and UDP
receive paths index inside `frame_buf` and `csum_buf` and write inside their own region
exactly when the lengths that the frame claims fit. -/
theorem receive_within_iff (csumBuf : Mem U8) (s : UdpEcho) (i : PassIn) (rx : MacRx) :
    (receiveLogged csumBuf s i rx).val = s.receive i rx
      ∧ (Within Arr.bounds (receiveLogged csumBuf s i rx).log
        ↔ (rx.valid = true → LengthsFit s i rx)) :=
  ⟨val_receiveLogged csumBuf s i rx, within_receiveLogged_iff csumBuf s i rx⟩

/-! ## §5. An echo request that is too long. -/

/-- An echo request of `4 * n` bytes of ICMP from 192.168.100.1. -/
def icmpEchoPacket (n : Nat) : List U8 :=
  (List.range 20).map (ipHeader (20 + BitVec.ofNat 16 (4 * n)) 0 64 ipProtoIcmp
      [192, 168, 100, 1] boardIpBytes)
    ++ [icmpEchoRequest, 0, 0, 0] ++ List.replicate (4 * n - 4) 0x61

/-- The stack as it reads the last byte of the request. -/
def icmpEchoWaiting (n : Nat) : UdpEcho :=
  { initDone := true, frameFifo := packWords (icmpEchoPacket n) }

/-- What MAC RX reports about the request. -/
def icmpEchoRx (n : Nat) : MacRx :=
  { ethertype := ethertypeIpv4, dstMac := boardMac, isUnicast := true, valid := true
    nwords := BitVec.ofNat 10 (5 + n) }

/-- An echo request of 260 bytes of IP writes the first word of the DHCP frame. -/
theorem icmp_echo_leaves_region :
    (Arr.scratch, 384) ∈ (receiveLogged (fun _ => 0) (icmpEchoWaiting 60) .quiet (icmpEchoRx 60)).log
      ∧ ¬ Within Arr.bounds
        (receiveLogged (fun _ => 0) (icmpEchoWaiting 60) .quiet (icmpEchoRx 60)).log := by
  have hstore : (Arr.scratch, 384)
      ∈ (receiveLogged (fun _ => 0) (icmpEchoWaiting 60) .quiet (icmpEchoRx 60)).log := by
    decide +kernel
  refine ⟨hstore, fun h => ?_⟩
  have hbound : 384 < 320 + 64 := (h _ hstore).2
  omega

end GigabitTcp
