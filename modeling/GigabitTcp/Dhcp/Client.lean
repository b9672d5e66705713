/-
  GigabitTcp.Dhcp.Client — the DHCP client over whole runs.

  The two entry points may be called in any order: `dhcp_tx_process` with any start flag, and
  `dhcp_rx_process` with any message.  What a run does is recorded: the frames that it sends,
  with the options they carry, the OFFER that it takes with what it stores of it, and the ACK.

  The record has one shape (`DhcpStands`): DISCOVERs, then the OFFER, then REQUESTs that repeat
  what was stored of it, then the ACK; and the frames are as many as the shared retry counter
  allows.

  Main results:
    * `DhcpStands.tx`, `DhcpStands.rx` — one call keeps the record in shape,
    * `dhcp_client_safe`               — every run from IDLE without reset.
-/
import GigabitTcp.Dhcp.Options
import GigabitTcp.Hw.Machine

namespace GigabitTcp

open Hw Machine

/-! ## §1. The client as a machine. -/

/-- A call of `dhcp_tx_process` with a start flag, or of `dhcp_rx_process` with a message. -/
inductive DhcpCall where
  | tx (start : Bool) (sh : Shared)
  | rx (un : Uninit) (udpRx : UdpRx) (frameBuf : Mem U32)

/-- `dhcp_tx_process` is only called while the mailbox is free. -/
def Shared.free (sh : Shared) : Shared := { sh with txReq := { sh.txReq with request := false } }

/-- The client out of reset; the output is the frame that it requests. -/
def dhcpClient : Machine DhcpClient DhcpCall (Option Shared)
  | d, .tx start sh =>
      let r := dhcpTxProcess true { d with start } sh.free
      (r.1, if r.2.txReq.request then some r.2 else none)
  | d, .rx un udpRx frameBuf => (dhcpRxProcess true un udpRx frameBuf d, none)

/-- An option of the requested frame: the message follows 28 bytes of headers. -/
def Shared.dhcpOption (sh : Shared) (code : U8) : List U8 :=
  dhcpReadOpt sh.buffer (sh.txReq.bufAddr.toNat + 7) (sh.txReq.bufLen.toNat - 28) code

/-- The message type of a message to the client. -/
def dhcpMsgType (udpRx : UdpRx) (frameBuf : Mem U32) : U8 :=
  (dhcpReadOpt frameBuf 7 udpRx.payloadLen.toNat 53).getD 0 0

/-- What a run is recorded to do. -/
inductive DhcpEntry where
  /-- A frame, with its message type and the options 50 and 54. -/
  | frame (msgType requested server : List U8)
  /-- An OFFER that is taken in WAIT_OFFER, with the address and the server that are stored. -/
  | offer (ip server : U32)
  /-- An ACK in WAIT_ACK. -/
  | ack
  deriving DecidableEq

def discoverFrame : DhcpEntry := .frame [dhcpMsgDiscover] [] []

def requestFrame (ip server : U32) : DhcpEntry :=
  .frame [dhcpMsgRequest] (wordBytes 4 ip) (wordBytes 4 server)

/-- The entry of a frame that is requested. -/
def Shared.dhcpFrame (sh : Shared) : DhcpEntry :=
  .frame (sh.dhcpOption 53) (sh.dhcpOption 50) (sh.dhcpOption 54)

/-- The entries of one call. -/
def dhcpEntries (d : DhcpClient) (c : DhcpCall) : List DhcpEntry :=
  match c with
  | .tx _ _ => (dhcpClient d c).2.toList.map Shared.dhcpFrame
  | .rx _ udpRx frameBuf =>
      if udpRx.valid = true ∧ udpRx.dstPort = dhcpClientPort then
        if d.state = .waitOffer ∧ dhcpMsgType udpRx frameBuf = dhcpMsgOffer then
          [.offer (dhcpClient d c).1.offeredIp (dhcpClient d c).1.serverIp]
        else if d.state = .waitAck ∧ dhcpMsgType udpRx frameBuf = dhcpMsgAck then [.ack]
        else []
      else []

/-! ## §2. The frames. -/

/-- The options of a frame that is sent. -/
theorem dhcpOption_dhcpSend (sh : Shared) (xid : U32) (opts : List (U8 × U8 × List U8))
    (hread : ∀ o ∈ opts, OptReadable o) (hcount : opts.length < 300)
    (hfits : 240 + (encodeOpts opts).length ≤ 300) (code : U8) :
    (dhcpSend sh xid opts).dhcpOption code
      = ((opts.find? (fun o => o.1 = code)).map (fun o => o.2.2.take o.2.1.toNat)).getD [] :=
  dhcpReadOpt_dhcpSend sh xid opts hread hcount hfits code

/-- A DISCOVER. -/
theorem dhcpSend_discover (sh : Shared) (xid : U32) :
    (dhcpSend sh xid dhcpDiscoverOpts).dhcpFrame = discoverFrame := by
  have hread : ∀ o ∈ dhcpDiscoverOpts, OptReadable o := by
    intro o ho
    simp only [dhcpDiscoverOpts, List.mem_cons, List.not_mem_nil, or_false] at ho
    rcases ho with rfl | rfl <;> exact ⟨by decide, by decide, by decide, by decide⟩
  have hopt := dhcpOption_dhcpSend sh xid dhcpDiscoverOpts hread (by decide) (by decide)
  unfold Shared.dhcpFrame
  rw [hopt, hopt, hopt]
  rfl

/-- A REQUEST repeats the address and the server it is given. -/
theorem dhcpSend_request (sh : Shared) (xid ip server : U32) :
    (dhcpSend sh xid (dhcpRequestOpts ip server)).dhcpFrame = requestFrame ip server := by
  have hread : ∀ o ∈ dhcpRequestOpts ip server, OptReadable o := by
    intro o ho
    simp only [dhcpRequestOpts, List.mem_cons, List.not_mem_nil, or_false] at ho
    rcases ho with rfl | rfl | rfl
    · exact ⟨by decide, by decide, by decide, by decide⟩
    · exact ⟨by simp, by simp, show (4 : U8) ≤ 4 by decide, by simp⟩
    · exact ⟨by simp, by simp, show (4 : U8) ≤ 4 by decide, by simp⟩
  have hopt := dhcpOption_dhcpSend sh xid (dhcpRequestOpts ip server) hread
    (show 3 < 300 by omega) (by simp [encodeOpts, dhcpRequestOpts, optBytes])
  unfold Shared.dhcpFrame
  rw [hopt, hopt, hopt]
  show DhcpEntry.frame [dhcpMsgRequest] ((wordBytes 4 ip).take 4) ((wordBytes 4 server).take 4) = _
  rw [List.take_of_length_le (by simp), List.take_of_length_le (by simp)]
  rfl

/-! ## §3. The shape of the record. -/

/-- `a` DISCOVERs, the OFFER that was taken, and `b` REQUESTs that repeat what was stored. -/
def offeredLog (a b : Nat) (ip server : U32) : List DhcpEntry :=
  List.replicate a discoverFrame ++ .offer ip server :: List.replicate b (requestFrame ip server)

/-- **The record of a client**: in a phase that waits, the frames so far are the retries and
one frame for each phase begun. -/
def DhcpStands (d : DhcpClient) (log : List DhcpEntry) : Prop :=
  match d.state with
  | .idle => log = []
  | .discover => d.retryCnt.toNat ≤ 3 ∧ log = List.replicate d.retryCnt.toNat discoverFrame
  | .waitOffer => d.retryCnt.toNat ≤ 3 ∧ log = List.replicate (d.retryCnt.toNat + 1) discoverFrame
  | .request => d.retryCnt.toNat ≤ 3
      ∧ ∃ a b, a + b = d.retryCnt.toNat + 1 ∧ log = offeredLog a b d.offeredIp d.serverIp
  | .waitAck => d.retryCnt.toNat ≤ 3
      ∧ ∃ a b, a + (b + 1) = d.retryCnt.toNat + 2 ∧ log = offeredLog a (b + 1) d.offeredIp d.serverIp
  | .done => ∃ a b, a + (b + 1) ≤ 5 ∧ log = offeredLog a (b + 1) d.offeredIp d.serverIp ++ [.ack]
  | .failed => (∃ a, a ≤ 5 ∧ log = List.replicate a discoverFrame)
      ∨ ∃ a b, a + b ≤ 5 ∧ log = offeredLog a b d.offeredIp d.serverIp

theorem offeredLog_snoc (a b : Nat) (ip server : U32) :
    offeredLog a b ip server ++ [requestFrame ip server] = offeredLog a (b + 1) ip server := by
  unfold offeredLog
  rw [List.append_assoc, List.cons_append, List.replicate_succ']

/-- Only the state, the retry counter and what was stored count. -/
theorem DhcpStands.congr {d d' : DhcpClient} {log : List DhcpEntry} (h : DhcpStands d log)
    (hstate : d'.state = d.state) (hretry : d'.retryCnt = d.retryCnt) (hip : d'.offeredIp = d.offeredIp)
    (hserver : d'.serverIp = d.serverIp) : DhcpStands d' log := by
  unfold DhcpStands at h ⊢
  rw [hstate, hretry, hip, hserver]
  exact h

/-! ## §4. One call. -/

/-- The timer ticks, or the start flag takes an idle client to DISCOVER. -/
theorem dhcpTick_cases (d : DhcpClient) :
    (d.start = true ∧ d.state = .idle
        ∧ dhcpTick d = { d with state := .discover, timer := 0, retryCnt := 0, xid := 0x12345678 })
      ∨ ((d.start = false ∨ d.state ≠ .idle) ∧ ∃ timer, dhcpTick d = { d with timer }) := by
  by_cases hstart : d.start = true ∧ d.state = .idle
  · left
    refine ⟨hstart.1, hstart.2, ?_⟩
    unfold dhcpTick
    simp [hstart.1, hstart.2]
  · right
    constructor
    · by_cases hidle : d.state = .idle
      · left
        simpa [hidle] using hstart
      · exact .inr hidle
    · unfold dhcpTick
      split
      · exact ⟨d.timer + 1, if_neg hstart⟩
      · exact ⟨d.timer, if_neg hstart⟩

/-- The branches of `dhcp_tx_process` behind the tick. -/
theorem dhcpTx_cases (d : DhcpClient) (sh : Shared) :
    let d' := dhcpTick d
    ((d'.state = .waitOffer ∨ d'.state = .waitAck) ∧ dhcpTxProcess true d sh = (dhcpRetry d', sh))
      ∨ (d'.state = .discover ∧ dhcpTxProcess true d sh
          = ({ d' with state := .waitOffer, timer := 0 }, dhcpSend sh d'.xid dhcpDiscoverOpts))
      ∨ (d'.state = .request ∧ dhcpTxProcess true d sh
          = ({ d' with state := .waitAck, timer := 0 },
              dhcpSend sh d'.xid (dhcpRequestOpts d'.offeredIp d'.serverIp)))
      ∨ (d'.state ≠ .discover ∧ d'.state ≠ .request ∧ dhcpTxProcess true d sh = (d', sh)) := by
  intro d'
  have hdef : dhcpTxProcess true d sh
      = if dhcpTimeout ≤ d'.timer ∧ (d'.state = .waitOffer ∨ d'.state = .waitAck) then (dhcpRetry d', sh)
        else if d'.state = .discover then
          ({ d' with state := .waitOffer, timer := 0 }, dhcpSend sh d'.xid dhcpDiscoverOpts)
        else if d'.state = .request then
          ({ d' with state := .waitAck, timer := 0 },
            dhcpSend sh d'.xid (dhcpRequestOpts d'.offeredIp d'.serverIp))
        else (d', sh) := rfl
  rw [hdef]
  by_cases htimeout : dhcpTimeout ≤ d'.timer ∧ (d'.state = .waitOffer ∨ d'.state = .waitAck)
  · exact .inl ⟨htimeout.2, if_pos htimeout⟩
  · rw [if_neg htimeout]
    by_cases hdiscover : d'.state = .discover
    · exact .inr (.inl ⟨hdiscover, if_pos hdiscover⟩)
    · rw [if_neg hdiscover]
      by_cases hrequest : d'.state = .request
      · exact .inr (.inr (.inl ⟨hrequest, if_pos hrequest⟩))
      · exact .inr (.inr (.inr ⟨hdiscover, hrequest, if_neg hrequest⟩))

/-- What the tick leaves of a record: a client that is started now has an empty one. -/
theorem DhcpStands.tick {d : DhcpClient} {log : List DhcpEntry} (h : DhcpStands d log) :
    DhcpStands (dhcpTick d) log := by
  rcases dhcpTick_cases d with ⟨-, hidle, htick⟩ | ⟨-, timer, htick⟩
  · rw [htick]
    unfold DhcpStands at h
    rw [hidle] at h
    exact ⟨Nat.zero_le 3, h⟩
  · rw [htick]
    exact h.congr rfl rfl rfl rfl

/-- A timeout uses up a retry, or ends the client. -/
theorem DhcpStands.retry {d : DhcpClient} {log : List DhcpEntry} (h : DhcpStands d log)
    (hwaits : d.state = .waitOffer ∨ d.state = .waitAck) : DhcpStands (dhcpRetry d) log := by
  unfold dhcpRetry
  by_cases hleft : d.retryCnt < 3
  · rw [if_pos hleft]
    have hlt : d.retryCnt.toNat < 3 := BitVec.lt_def.mp hleft
    have hnext : (d.retryCnt + 1).toNat = d.retryCnt.toNat + 1 := by
      rw [BitVec.toNat_add, show (1 : U32).toNat = 1 from rfl]
      exact Nat.mod_eq_of_lt (by omega)
    rcases hwaits with hstate | hstate
    · unfold DhcpStands at h
      rw [hstate] at h
      rw [if_pos hstate]
      show (d.retryCnt + 1).toNat ≤ 3 ∧ log = List.replicate (d.retryCnt + 1).toNat discoverFrame
      rw [hnext]
      exact ⟨hlt, h.2⟩
    · unfold DhcpStands at h
      rw [hstate] at h
      obtain ⟨-, a, b, hcount, hlog⟩ := h
      rw [if_neg (by rw [hstate]; decide)]
      show (d.retryCnt + 1).toNat ≤ 3 ∧ ∃ a b, a + b = (d.retryCnt + 1).toNat + 1
        ∧ log = offeredLog a b d.offeredIp d.serverIp
      rw [hnext]
      exact ⟨hlt, a, b + 1, hcount, hlog⟩
  · rw [if_neg hleft]
    rcases hwaits with hstate | hstate
    · unfold DhcpStands at h
      rw [hstate] at h
      exact .inl ⟨d.retryCnt.toNat + 1, by have := h.1; omega, h.2⟩
    · unfold DhcpStands at h
      rw [hstate] at h
      obtain ⟨hretry, a, b, hcount, hlog⟩ := h
      exact .inr ⟨a, b + 1, by omega, hlog⟩

/-- The frame of a call, if it requests one. -/
theorem dhcpClient_tx {d e : DhcpClient} {start : Bool} {sh sh' : Shared}
    (h : dhcpTxProcess true { d with start } sh.free = (e, sh')) :
    dhcpClient d (.tx start sh) = (e, if sh'.txReq.request then some sh' else none) := by
  show ((dhcpTxProcess true { d with start } sh.free).1,
    if (dhcpTxProcess true { d with start } sh.free).2.txReq.request then
      some (dhcpTxProcess true { d with start } sh.free).2 else none) = _
  rw [h]

/-- **A call of `dhcp_tx_process`** keeps the record in shape. -/
theorem DhcpStands.tx {d : DhcpClient} {log : List DhcpEntry} (h : DhcpStands d log) (start : Bool)
    (sh : Shared) :
    DhcpStands (dhcpClient d (.tx start sh)).1 (log ++ dhcpEntries d (.tx start sh)) := by
  have hstart : DhcpStands { d with start } log := h.congr rfl rfl rfl rfl
  have htick := hstart.tick
  have hentries : dhcpEntries d (.tx start sh) = (dhcpClient d (.tx start sh)).2.toList.map Shared.dhcpFrame := rfl
  rw [hentries]
  generalize hd' : dhcpTick { d with start } = d' at htick
  have hcases := dhcpTx_cases { d with start } sh.free
  rw [hd'] at hcases
  rcases hcases with ⟨hwaits, htx⟩ | ⟨hstate, htx⟩ | ⟨hstate, htx⟩ | ⟨-, -, htx⟩
  · rw [dhcpClient_tx htx]
    show DhcpStands (dhcpRetry d') (log ++ [])
    rw [List.append_nil]
    exact htick.retry hwaits
  · rw [dhcpClient_tx htx]
    show DhcpStands _ (log ++ [(dhcpSend sh.free d'.xid dhcpDiscoverOpts).dhcpFrame])
    rw [dhcpSend_discover]
    unfold DhcpStands at htick
    rw [hstate] at htick
    refine ⟨htick.1, ?_⟩
    rw [htick.2]
    exact List.replicate_succ'.symm
  · rw [dhcpClient_tx htx]
    show DhcpStands _
      (log ++ [(dhcpSend sh.free d'.xid (dhcpRequestOpts d'.offeredIp d'.serverIp)).dhcpFrame])
    rw [dhcpSend_request]
    unfold DhcpStands at htick
    rw [hstate] at htick
    obtain ⟨hretry, a, b, hcount, hlog⟩ := htick
    refine ⟨hretry, a, b, ?_, ?_⟩
    · show a + (b + 1) = d'.retryCnt.toNat + 2
      omega
    · rw [hlog, offeredLog_snoc]
  · rw [dhcpClient_tx htx]
    show DhcpStands d' (log ++ [])
    rw [List.append_nil]
    exact htick

/-- **A call of `dhcp_rx_process`** keeps the record in shape. -/
theorem DhcpStands.rx {d : DhcpClient} {log : List DhcpEntry} (h : DhcpStands d log) (un : Uninit)
    (udpRx : UdpRx) (frameBuf : Mem U32) :
    DhcpStands (dhcpClient d (.rx un udpRx frameBuf)).1 (log ++ dhcpEntries d (.rx un udpRx frameBuf)) := by
  have hclient : (dhcpClient d (.rx un udpRx frameBuf)).1 = dhcpRxProcess true un udpRx frameBuf d := rfl
  unfold dhcpEntries
  dsimp only
  rw [hclient]
  unfold dhcpRxProcess
  by_cases hours : udpRx.valid = true ∧ udpRx.dstPort = dhcpClientPort
  · have hguard : ¬ (!true || !udpRx.valid || udpRx.dstPort != dhcpClientPort) = true := by
      rw [hours.1, hours.2]
      decide
    rw [if_neg hguard, if_pos hours]
    unfold dhcpMsgType
    dsimp only
    by_cases hoffer : d.state = .waitOffer
        ∧ (dhcpReadOpt frameBuf 7 udpRx.payloadLen.toNat 53).getD 0 0 = dhcpMsgOffer
    · rw [if_pos hoffer, if_pos hoffer]
      unfold DhcpStands at h
      rw [hoffer.1] at h
      obtain ⟨hretry, hlog⟩ := h
      refine ⟨hretry, d.retryCnt.toNat + 1, 0, rfl, ?_⟩
      rw [hlog]
      rfl
    · rw [if_neg hoffer, if_neg hoffer]
      by_cases hack : d.state = .waitAck ∧ (dhcpReadOpt frameBuf 7 udpRx.payloadLen.toNat 53).getD 0 0 = dhcpMsgAck
      · rw [if_pos hack, if_pos hack]
        unfold DhcpStands at h
        rw [hack.1] at h
        obtain ⟨hretry, a, b, hcount, hlog⟩ := h
        exact ⟨a, b, by omega, by rw [hlog]⟩
      · rw [if_neg hack, if_neg hack, List.append_nil]
        exact h
  · have hguard : (!true || !udpRx.valid || udpRx.dstPort != dhcpClientPort) = true := by
      rcases not_and_or.mp hours with hvalid | hport
      · simp [hvalid]
      · simp [hport]
    rw [if_pos hguard, if_neg hours, List.append_nil]
    exact h

/-- DONE and FAILED are not left, and nothing is sent there. -/
theorem dhcpClient_absorbing {d : DhcpClient} (h : d.state = .done ∨ d.state = .failed) (c : DhcpCall) :
    (dhcpClient d c).1.state = d.state ∧ (dhcpClient d c).2 = none := by
  cases c with
  | rx un udpRx frameBuf =>
      refine ⟨?_, rfl⟩
      show (dhcpRxProcess true un udpRx frameBuf d).state = d.state
      unfold dhcpRxProcess
      rcases h with hstate | hstate <;> simp [hstate]
  | tx start sh =>
      -- neither the tick nor a timeout moves the client
      have htick : dhcpTick { d with start } = { d with start } := by
        unfold dhcpTick
        rcases h with hstate | hstate <;> simp [hstate]
      have hcases := dhcpTx_cases { d with start } sh.free
      rw [htick] at hcases
      have htx : dhcpTxProcess true { d with start } sh.free = ({ d with start }, sh.free) := by
        rcases hcases with ⟨hwaits, -⟩ | ⟨hdiscover, -⟩ | ⟨hrequest, -⟩ | ⟨-, -, htx⟩
        · rcases h with hstate | hstate <;> rw [hstate] at hwaits <;> simp at hwaits
        · rcases h with hstate | hstate <;> rw [hstate] at hdiscover <;> cases hdiscover
        · rcases h with hstate | hstate <;> rw [hstate] at hrequest <;> cases hrequest
        · exact htx
      rw [dhcpClient_tx htx]
      exact ⟨rfl, rfl⟩

/-- DONE is entered by an ACK in WAIT_ACK. -/
theorem dhcpClient_enters_done {d : DhcpClient} {c : DhcpCall} (hnot : d.state ≠ .done)
    (hdone : (dhcpClient d c).1.state = .done) : dhcpEntries d c = [.ack] := by
  cases c with
  | tx start sh =>
      exfalso
      have hcases := dhcpTx_cases { d with start } sh.free
      rcases hcases with ⟨-, htx⟩ | ⟨-, htx⟩ | ⟨-, htx⟩ | ⟨-, -, htx⟩
      · rw [dhcpClient_tx htx] at hdone
        change (dhcpRetry _).state = .done at hdone
        unfold dhcpRetry at hdone
        split_ifs at hdone
      · rw [dhcpClient_tx htx] at hdone
        cases hdone
      · rw [dhcpClient_tx htx] at hdone
        cases hdone
      · rw [dhcpClient_tx htx] at hdone
        rcases dhcpTick_cases { d with start } with ⟨-, -, htick⟩ | ⟨-, timer, htick⟩
        · rw [htick] at hdone
          cases hdone
        · rw [htick] at hdone
          exact hnot hdone
  | rx un udpRx frameBuf =>
      change (dhcpRxProcess true un udpRx frameBuf d).state = .done at hdone
      unfold dhcpRxProcess at hdone
      unfold dhcpEntries dhcpMsgType
      dsimp only at hdone ⊢
      by_cases hguard : (!true || !udpRx.valid || udpRx.dstPort != dhcpClientPort) = true
      · rw [if_pos hguard] at hdone
        exact absurd hdone hnot
      · rw [if_neg hguard] at hdone
        split_ifs at hdone with hoffer hack
        · have hours : udpRx.valid = true ∧ udpRx.dstPort = dhcpClientPort := by
            simpa using hguard
          rw [if_pos hours, if_neg hoffer, if_pos hack]
        · exact absurd hdone hnot

/-! ## §5. Runs. -/

/-- The entry is a frame. -/
def DhcpEntry.isFrame : DhcpEntry → Bool
  | .frame _ _ _ => true
  | _ => false

/-- The shape of every record. -/
theorem DhcpStands.shape {d : DhcpClient} {log : List DhcpEntry} (h : DhcpStands d log) :
    (∃ a, a ≤ 5 ∧ log = List.replicate a discoverFrame)
      ∨ ∃ a b ip server, a + b ≤ 5
        ∧ (log = offeredLog a b ip server ∨ log = offeredLog a b ip server ++ [.ack]) := by
  unfold DhcpStands at h
  cases hstate : d.state with
  | idle =>
      rw [hstate] at h
      exact .inl ⟨0, by omega, h⟩
  | discover =>
      rw [hstate] at h
      exact .inl ⟨_, by omega, h.2⟩
  | waitOffer =>
      rw [hstate] at h
      exact .inl ⟨_, by omega, h.2⟩
  | request =>
      rw [hstate] at h
      obtain ⟨hretry, a, b, hcount, hlog⟩ := h
      exact .inr ⟨a, b, _, _, by omega, .inl hlog⟩
  | waitAck =>
      rw [hstate] at h
      obtain ⟨hretry, a, b, hcount, hlog⟩ := h
      exact .inr ⟨a, b + 1, _, _, by omega, .inl hlog⟩
  | done =>
      rw [hstate] at h
      obtain ⟨a, b, hcount, hlog⟩ := h
      exact .inr ⟨a, b + 1, _, _, hcount, .inr hlog⟩
  | failed =>
      rw [hstate] at h
      rcases h with hdiscover | ⟨a, b, hcount, hlog⟩
      · exact .inl hdiscover
      · exact .inr ⟨a, b, _, _, hcount, .inl hlog⟩

theorem filter_offeredLog (a b : Nat) (ip server : U32) :
    ((offeredLog a b ip server).filter DhcpEntry.isFrame).length = a + b := by
  unfold offeredLog
  rw [List.filter_append, List.filter_cons_of_neg (show ¬ false = true by decide),
    List.filter_eq_self.mpr (fun e he => by rw [List.eq_of_mem_replicate he]; rfl),
    List.filter_eq_self.mpr (fun e he => by rw [List.eq_of_mem_replicate he]; rfl)]
  simp

/-- At most five frames. -/
theorem DhcpStands.frames {d : DhcpClient} {log : List DhcpEntry} (h : DhcpStands d log) :
    (log.filter DhcpEntry.isFrame).length ≤ 5 := by
  rcases h.shape with ⟨a, ha, hlog⟩ | ⟨a, b, ip, server, hcount, hlog | hlog⟩
  · rw [hlog]
    exact (List.length_filter_le _ _).trans (by rw [List.length_replicate]; exact ha)
  · rw [hlog, filter_offeredLog]
    exact hcount
  · rw [hlog, List.filter_append, List.length_append, filter_offeredLog]
    exact hcount

/-- In a record with an OFFER, a REQUEST stands behind it and repeats it. -/
theorem request_behind_offer {a b : Nat} {ip server : U32} {before later : List DhcpEntry}
    {requested named : List U8} (tail : List DhcpEntry) (htail : ∀ e ∈ tail, e = .ack)
    (h : offeredLog a b ip server ++ tail = before ++ .frame [dhcpMsgRequest] requested named :: later) :
    .offer ip server ∈ before ∧ requested = wordBytes 4 ip ∧ named = wordBytes 4 server := by
  unfold offeredLog at h
  rw [List.append_assoc, List.cons_append] at h
  have hdiscover : ∀ e ∈ List.replicate a discoverFrame, e ≠ .frame [dhcpMsgRequest] requested named := by
    intro e he
    rw [List.eq_of_mem_replicate he]
    intro hsame
    injection hsame with htype
    exact absurd htype (by decide)
  rcases List.append_eq_append_iff.mp h with ⟨mid, hbefore, hrest⟩ | ⟨mid, hbefore, hrest⟩
  · cases mid with
    | nil => cases hrest
    | cons e mid =>
        obtain ⟨rfl, hlater⟩ := List.cons.inj hrest
        refine ⟨by rw [hbefore]; simp, ?_⟩
        have hmem : .frame [dhcpMsgRequest] requested named
            ∈ List.replicate b (requestFrame ip server) ++ tail := by
          rw [hlater]
          exact List.mem_append_right _ List.mem_cons_self
        rcases List.mem_append.mp hmem with hreq | hack
        · have hsame := List.eq_of_mem_replicate hreq
          injection hsame with _ hip hserver
          exact ⟨hip, hserver⟩
        · cases htail _ hack
  · cases mid with
    | nil => cases hrest
    | cons e mid =>
        obtain ⟨rfl, -⟩ := List.cons.inj hrest
        exact absurd rfl (hdiscover _ (by rw [hbefore]; simp))

/-- **The DHCP client**, in every run from IDLE without reset: it issues at most five frames;
DONE and FAILED are absorbing and silent; DONE is entered by an ACK in WAIT_ACK, behind an
OFFER that was taken and a REQUEST; and every REQUEST repeats what was stored of that OFFER. -/
theorem dhcp_client_safe (d₀ : DhcpClient) (calls : List DhcpCall) (h : d₀.state = .idle) :
    let d := dhcpClient.after d₀ calls
    let log := dhcpClient.record dhcpEntries d₀ calls
    (log.filter DhcpEntry.isFrame).length ≤ 5
      ∧ (∀ c, d.state = .done ∨ d.state = .failed →
          (dhcpClient d c).1.state = d.state ∧ (dhcpClient d c).2 = none)
      ∧ (∀ c, d.state ≠ .done → (dhcpClient d c).1.state = .done → dhcpEntries d c = [.ack])
      ∧ (d.state = .done → ∃ a b ip server, log = offeredLog a (b + 1) ip server ++ [.ack])
      ∧ (∀ before requested named later,
          log = before ++ .frame [dhcpMsgRequest] requested named :: later →
          ∃ ip server, .offer ip server ∈ before
            ∧ requested = wordBytes 4 ip ∧ named = wordBytes 4 server) := by
  intro d log
  have hstands : DhcpStands d log := by
    have hstart : DhcpStands d₀ [] := by
      unfold DhcpStands
      rw [h]
    refine Along.invariant_record (C := fun _ _ => True) (P := DhcpStands) ?_ calls hstart
      (Along.of_all (fun _ _ => trivial) d₀ calls)
    intro s l c hs _
    cases c with
    | tx start sh => exact hs.tx start sh
    | rx un udpRx frameBuf => exact hs.rx un udpRx frameBuf
  refine ⟨hstands.frames, fun c hend => dhcpClient_absorbing hend c,
    fun c hnot hdone => dhcpClient_enters_done hnot hdone, ?_, ?_⟩
  · intro hdone
    unfold DhcpStands at hstands
    rw [hdone] at hstands
    obtain ⟨a, b, -, hlog⟩ := hstands
    exact ⟨a, b, _, _, hlog⟩
  · intro before requested named later hlog
    rcases hstands.shape with ⟨a, -, hshape⟩ | ⟨a, b, ip, server, -, hshape | hshape⟩
    · have hmem : .frame [dhcpMsgRequest] requested named ∈ log := by
        rw [hlog]
        simp
      rw [hshape] at hmem
      have hsame := List.eq_of_mem_replicate hmem
      injection hsame with htype
      exact absurd htype (by decide)
    · exact ⟨ip, server, request_behind_offer [] nofun
        (by rw [List.append_nil, ← hshape, hlog])⟩
    · exact ⟨ip, server, request_behind_offer [.ack]
        (fun e he => List.mem_singleton.mp he) (hshape.symm.trans hlog)⟩

/-- A reply of 192.168.100.254 with this message type, as it is staged. -/
def dhcpReplyCall (msgType : U8) : DhcpCall :=
  .rx Uninit.zero { valid := true, dstPort := dhcpClientPort, payloadLen := 300 }
    (fun k => (dhcpSend {} 0x12345678
      [(53, 1, [msgType]), (54, 4, [192, 168, 100, 254])]).buffer (dhcpFrameBase + k))

/-- A whole exchange: DISCOVER, OFFER, REQUEST, ACK. -/
theorem dhcp_client_exchange :
    let calls := [.tx true {}, dhcpReplyCall dhcpMsgOffer, .tx true {}, dhcpReplyCall dhcpMsgAck]
    (dhcpClient.after {} calls).state = .done
      ∧ ∃ a b ip server, dhcpClient.record dhcpEntries {} calls
          = offeredLog a (b + 1) ip server ++ [.ack] := by
  intro calls
  have hdone : (dhcpClient.after {} calls).state = .done := by decide +kernel
  exact ⟨hdone, (dhcp_client_safe {} calls rfl).2.2.2.1 hdone⟩

end GigabitTcp
