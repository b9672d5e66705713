/-
  GigabitTcp.Stack.Sessions — the stack at rest as a server of requests.

  The stack refines the responder frame by frame: bytes in at any pace, the reply out behind the
  last one, and rest again.  What it remembers between two frames, the ARP cache and the TCP
  slots, is what the responder remembers.

  Main results:
    * `Ready.exchange` — one frame and its reply,
    * `Ready.session`  — any sequence of requests.
-/
import GigabitTcp.Stack.Segments

namespace GigabitTcp

open Hw Machine

/-! ## §1. Exchanges. -/

/-- No reply is longer than the passes that an exchange waits. -/
theorem Request.Answered.length {f : TaggedFrame} {r : Request} (hin : r.In f) {σ : Responder}
    (hexp : r.Expected σ) {reply : Option (List U8)} (h : r.Answered σ reply) :
    ∀ w, reply = some w → w.length ≤ 1050 := by
  intro w hw
  cases r with
  | arp q =>
      rw [Request.answered_arp] at h
      split at h
      · obtain ⟨packet, hpacket, hlen, -⟩ := h
        rw [Option.some.inj (hw.symm.trans hpacket), length_ethernetFrame, hlen]
        omega
      · exact (Option.some_ne_none w (hw.symm.trans h)).elim
  | ping p =>
      obtain ⟨packet, message, hpacket, hlen, -⟩ := h
      obtain ⟨hp, -, -, -, -, hmax⟩ := hin
      have htotal := hp.data.1
      rw [Option.some.inj (hw.symm.trans hpacket), length_ethernetFrame, hlen]
      omega
  | query p =>
      obtain ⟨packet, report, hpacket, hlen, -⟩ := h
      rw [Option.some.inj (hw.symm.trans hpacket), length_ethernetFrame, hlen]
      omega
  | datagram p =>
      obtain ⟨packet, datagram, hpacket, hlen, -⟩ := h
      obtain ⟨hp, -, -, -, -, hmax⟩ := hin
      have htotal := hp.data.1
      rw [Option.some.inj (hw.symm.trans hpacket), length_ethernetFrame, hlen]
      omega
  | segment p g =>
      rcases h with ⟨-, hnone⟩ | ⟨r, packet, segment, hr, hpacket, hlen, hsegment, -⟩
      · exact (Option.some_ne_none w (hw.symm.trans hnone)).elim
      · have hshort : r.data.length ≤ 536 := EchoServer.Expects.reply_length hexp hr
        have hoffset := (tcpOffset_bounds r.flags).2
        rw [Option.some.inj (hw.symm.trans hpacket), length_ethernetFrame, hlen]
        omega
  | dropped => exact (Option.some_ne_none w (hw.symm.trans h)).elim

/-- A request on the wire: the passes in which its frame arrives, the last byte in `last`, and the
silence behind it. -/
structure Exchange where
  frame : TaggedFrame
  request : Request
  front : List PassIn
  last : PassIn
  wait : List PassIn

def Exchange.passes (x : Exchange) : List PassIn := x.front ++ x.last :: x.wait

/-- The frame is for the board and carries the request, and the silence is as long as a reply. -/
structure Exchange.Fits (x : Exchange) : Prop where
  accepted : macAccepts x.frame.dst
  short : x.frame.payload.length ≤ 1600
  asks : x.request.In x.frame
  arrives : Arrival x.frame x.front x.last
  silent : ∀ i ∈ x.wait, i.resetN = true ∧ i.rx = none
  waits : 1051 ≤ x.wait.length

/-- **One exchange.** -/
theorem Ready.exchange {pacing : U32} {n : Nat} {s : UdpEcho} (x : Exchange) (hx : x.Fits)
    (hexp : x.request.Expected s.responder) (h : Ready pacing (x.passes.length + n) s) :
    let t := (udpEchoMachine pacing).after s x.passes
    ∃ reply, x.request.Answered s.responder reply ∧ t.responder = s.responder.next x.request
      ∧ Ready pacing n t
      ∧ (((udpEchoMachine pacing).outs s x.passes).map PassOut.tx).reduceOption
        = reply.toList.flatMap gmiiFrame := by
  have hcount : x.passes.length + n = x.front.length + 1 + (x.wait.length + n) := by
    unfold Exchange.passes
    rw [List.length_append, List.length_cons]
    omega
  have hrest := h.toRests
  rw [hcount] at hrest
  obtain ⟨hrest, hshared, htcp, hout, hin, hmac, hfifo, hbytes⟩ :=
    hrest.frame_arrives h.macRx h.fifo hx.arrives hx.accepted hx.short
  have hreset : x.last.resetN = true := hx.arrives.reset x.last (by simp)
  intro t
  have ht : t = (udpEchoMachine pacing).after
      (udpEcho pacing ((udpEchoMachine pacing).after s x.front) x.last).1 x.wait := by
    show (udpEchoMachine pacing).after s (x.front ++ x.last :: x.wait) = _
    rw [after_append, after_cons]
    rfl
  have houts : ((udpEchoMachine pacing).outs s x.passes).map PassOut.tx
      = List.replicate x.front.length none
        ++ none :: ((udpEchoMachine pacing).outs
          (udpEcho pacing ((udpEchoMachine pacing).after s x.front) x.last).1 x.wait).map PassOut.tx := by
    unfold Exchange.passes
    rw [outs_append, List.map_append, hout, outs_cons, List.map_cons]
    exact congrArg (_ ++ ·) (congrArg (· :: _) (hrest.macTx hreset).2.2.2)
  rw [ht, houts]
  have hsame : ((udpEchoMachine pacing).after s x.front).responder = s.responder := by
    unfold UdpEcho.responder
    rw [hshared, htcp]
  generalize (udpEchoMachine pacing).after s x.front = u at *
  -- the reply, and what the silence behind it lets out
  have hlast : LastByte pacing (x.wait.length + n) x.frame u x.last :=
    ⟨hrest, hreset, hin, hmac, hfifo, hbytes⟩
  obtain ⟨reply, hanswered, hleaves⟩ := hlast.answers hx.asks (hsame.symm ▸ hexp)
  rw [hsame] at hanswered hleaves
  have hnone : ∀ l : List (Option GmiiByte),
      (List.replicate x.front.length none ++ none :: l).reduceOption = l.reduceOption := by
    intro l
    rw [List.reduceOption_append, List.reduceOption_replicate_none, List.nil_append,
      List.reduceOption_cons_of_none]
  rw [hnone]
  refine ⟨reply, hanswered, ?_⟩
  cases hreply : reply with
  | none =>
      obtain ⟨hquiet, hidle, hempty⟩ := hleaves.rests hreply
      obtain ⟨hend, hmac', hfifo', hshared', htcp', -, hout'⟩ := hquiet.silent x.wait hx.silent
      refine ⟨?_, ⟨hend, hmac'.symm ▸ hidle, hfifo'.trans hempty⟩, ?_⟩
      · rw [← hleaves.responder]
        unfold UdpEcho.responder
        rw [hshared', htcp']
      · rw [hout', List.reduceOption_replicate_none]
        rfl
  | some w =>
      obtain ⟨hposted, hwire⟩ := hleaves.posted w hreply
      have hshort := hanswered.length hx.asks hexp w hreply
      have hwaits := hx.waits
      obtain ⟨hend, hmac', hfifo', hshared', htcp', hout'⟩ :=
        hposted.sent x.wait hx.silent (by rw [hwire]; omega)
      refine ⟨?_, ⟨hend, hmac', hfifo'⟩, ?_⟩
      · rw [← hleaves.responder]
        unfold UdpEcho.responder
        rw [hshared', htcp']
      · rw [hout', hwire]
        exact (List.append_nil _).symm

/-! ## §2. Sessions. -/

/-- The passes of a session. -/
def sessionPasses (xs : List Exchange) : List PassIn := xs.flatMap Exchange.passes

/-- **Exchanges one after another.** -/
theorem Ready.session {pacing : U32} (xs : List Exchange) (hxs : ∀ x ∈ xs, x.Fits) {s : UdpEcho}
    (hpolite : Polite s.responder (xs.map Exchange.request))
    (h : Ready pacing (sessionPasses xs).length s) :
    let t := (udpEchoMachine pacing).after s (sessionPasses xs)
    ∃ replies, Served s.responder (xs.map Exchange.request) replies t.responder
      ∧ (((udpEchoMachine pacing).outs s (sessionPasses xs)).map PassOut.tx).reduceOption
        = replies.flatMap gmiiFrame
      ∧ Ready pacing 0 t := by
  induction xs generalizing s with
  | nil => exact ⟨[], .nil _, rfl, h⟩
  | cons x xs ih =>
      have hsplit : sessionPasses (x :: xs) = x.passes ++ sessionPasses xs := List.flatMap_cons
      rw [hsplit, List.length_append] at h
      obtain ⟨hexp, hlater⟩ := hpolite
      obtain ⟨reply, hnow, hnext, hready, hout⟩ := h.exchange x (hxs x List.mem_cons_self) hexp
      rw [← hnext] at hlater
      obtain ⟨replies, hserved, hout', hready'⟩ :=
        ih (fun y hy => hxs y (List.mem_cons_of_mem _ hy)) hlater hready
      rw [hnext] at hserved
      intro t
      have ht : t = (udpEchoMachine pacing).after ((udpEchoMachine pacing).after s x.passes)
          (sessionPasses xs) := by
        show (udpEchoMachine pacing).after s (sessionPasses (x :: xs)) = _
        rw [hsplit, after_append]
      rw [ht, hsplit]
      refine ⟨reply.toList ++ replies, .cons hnow hserved, ?_, hready'⟩
      rw [outs_append, List.map_append, List.reduceOption_append, hout, hout', List.flatMap_append]

/-- An exchange without empty passes in the frame. -/
def Exchange.plain (frame : TaggedFrame) (request : Request) : Exchange :=
  { frame, request, front := (gmiiFrame frame.bytes).dropLast.map readPass
    last := readPass ((gmiiFrame frame.bytes).getLast?.getD (plainByte 0))
    wait := List.replicate 1051 .quiet }

theorem Exchange.plain_fits {frame : TaggedFrame} {request : Request} (hacc : macAccepts frame.dst)
    (hshort : frame.payload.length ≤ 1600) (hin : request.In frame) :
    (Exchange.plain frame request).Fits := by
  have hne : gmiiFrame frame.bytes ≠ [] := by
    intro hnil
    have hlen := congrArg List.length hnil
    have hpos := List.length_pos_of_ne_nil frame.nonempty
    rw [length_gmiiFrame, TaggedFrame.bytes, List.length_append, List.length_nil] at hlen
    omega
  have hwhole : (gmiiFrame frame.bytes).dropLast ++ [(gmiiFrame frame.bytes).getLast?.getD (plainByte 0)]
      = gmiiFrame frame.bytes := by
    rw [List.getLast?_eq_some_getLast hne]
    exact List.dropLast_append_getLast hne
  refine ⟨hacc, hshort, hin, ⟨?_, ?_, rfl⟩, ?_, ?_⟩
  · intro i hi
    simp only [Exchange.plain, List.mem_append, List.mem_map, List.mem_singleton] at hi
    rcases hi with ⟨b, -, rfl⟩ | rfl <;> rfl
  · have hmap : ((Exchange.plain frame request).front ++ [(Exchange.plain frame request).last]).map PassIn.rx
        = (gmiiFrame frame.bytes).map some := by
      rw [← hwhole, List.map_append, List.map_append]
      exact congrArg₂ (· ++ ·) (List.map_map ..) rfl
    rw [hmap]
    show ((gmiiFrame frame.bytes).map some).filterMap id = _
    rw [List.filterMap_map]
    exact List.filterMap_some
  · intro i hi
    rw [List.eq_of_mem_replicate hi]
    exact ⟨rfl, rfl⟩
  · exact (List.length_replicate ..).ge

end GigabitTcp
