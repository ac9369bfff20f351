import StreamCatalog.Proofs.Faults.Decoder
import StreamCatalog.Proofs.Session.Balance

/-!
# What a reception calls its decoder for

A session reads its datagrams as a `Decoder` does, and otherwise leaves aligner,
analyzer and extractor alone. An event therefore comes to a few calls
(`Session.decoder_step`), and so does everything that happens to a session, its
commits and its files (`SessionLedger.decoder_stepAll`). Which calls these are depends on
the file system, since a chunk must be open for what is left to be decoded at the
end; what holds of all calls holds of a reception.
-/

namespace StreamCatalog

namespace Decoder

theorem run_append (d : Decoder) (calls later : List DecoderCall) :
    (d.run (calls ++ later)).2 = ((d.run calls).2.run later).2 := by
  induction calls generalizing d with
  | nil => rfl
  | cons c calls ih => exact ih (d.call c).2

end Decoder

namespace Session

/-- What a session reads its datagrams with. -/
def decoder (s : Session) : Decoder := ⟨s.aligner, s.analyzer, s.extractor⟩

/-- What an event calls the decoder for. -/
def decoderCalls (s : Session) : SessionEvent → List DecoderCall
  | .datagram bytes => [.datagram bytes]
  | .shutdown => if s.chunk.isSome then [.flush, .reset] else [.reset]
  | .tick | .rollover | .configure _ => []

/-- Packets are read by the decoder. -/
theorem readPackets_decoder (s : Session) (packets : List Bytes) :
    (s.readPackets packets).1 = (s.decoder.readPackets packets).1 ∧
      (s.readPackets packets).2.decoder = (s.decoder.readPackets packets).2 := by
  induction packets generalizing s with
  | nil => exact ⟨rfl, rfl⟩
  | cons packet packets ih =>
    rw [readPackets, readPacket, Decoder.readPackets]
    cases Transport.Packet.parse packet with
    | error fault =>
      obtain ⟨hfound, hdecoder⟩ := ih s
      refine ⟨?_, hdecoder⟩
      dsimp only
      rw [← hfound, PacketFindings.append, Nat.zero_add, List.nil_append]
    | ok p =>
      obtain ⟨hfound, hdecoder⟩ := ih
        { s with analyzer := (s.analyzer.observe p).2, extractor := (s.extractor.push p).2 }
      refine ⟨?_, hdecoder⟩
      dsimp only
      rw [hfound, PacketFindings.append, Nat.add_comm]
      rfl

/-! ## Events -/

theorem decoder_of_receiver_eq {s t : Session} (h : s.receiver = t.receiver) :
    s.decoder = t.decoder :=
  congrArg (fun r : Receiver => (⟨r.aligner, r.analyzer, r.extractor⟩ : Decoder)) h

theorem decoder_receive (bytes : Bytes) (now : Moment) (s : Session) (d : ChunkDirectory) :
    (s.receive bytes now d).2.1.decoder = (s.decoder.call (.datagram bytes)).2 := by
  have haligner : s.decoder.aligner = s.aligner := rfl
  rw [receive, Decoder.call, haligner]
  rcases s.aligner.push bytes with ⟨fault | packets, aligner⟩
  · rfl
  · dsimp only
    rw [decoder_of_receiver_eq (receiver_write ..)]
    exact (readPackets_decoder { s with aligner := aligner } packets).2

/-- What is left is decoded when a chunk is open. -/
theorem decoder_flush (s : Session) :
    s.flush.decoder = if s.chunk.isSome then (s.decoder.call .flush).2 else s.decoder := by
  rw [flush]
  cases s.chunk <;> rfl

/-- An event does to the decoder what it calls it for. -/
theorem decoder_step (e : SessionEvent) (now : Moment) (s : Session) (d : ChunkDirectory) :
    (s.step e now d).2.1.decoder = (s.decoder.run (s.decoderCalls e)).2 := by
  cases e with
  | datagram bytes => exact s.decoder_receive bytes now d
  | tick => exact decoder_of_receiver_eq (s.receiver_tick now d)
  | rollover | configure => exact decoder_of_receiver_eq (s.receiver_rollover now d)
  | shutdown =>
    have hclosed :=
      (decoder_of_receiver_eq (s.flush.receiver_rollover now d)).trans s.decoder_flush
    have hreset := congrArg (fun decoder => (Decoder.call decoder .reset).2) hclosed
    refine Eq.trans hreset ?_
    rw [decoderCalls]
    split <;> rfl

end Session

/-! ## Runs -/

/-- What an input calls the decoder of a session for. -/
def LedgerInput.decoderCalls (s : Session) (i : LedgerInput) : List DecoderCall :=
  i.event?.toList.flatMap s.decoderCalls

namespace SessionLedger

/-- What several inputs call the decoder for. -/
def decoderCalls (r : SessionLedger) : List LedgerInput → List DecoderCall
  | [] => []
  | i :: is => i.decoderCalls r.session ++ (r.step i).decoderCalls is

theorem decoder_step (r : SessionLedger) (i : LedgerInput) :
    (r.step i).session.decoder = (r.session.decoder.run (i.decoderCalls r.session)).2 := by
  cases i with
  | event e now =>
    rw [LedgerInput.decoderCalls, LedgerInput.event?, Option.toList_some, List.flatMap_singleton]
    exact r.session.decoder_step e now r.directory
  | refuse | make => rfl
  | counted => exact Session.decoder_of_receiver_eq r.session.receiver_countEnded
  | ended i result =>
    exact Session.decoder_of_receiver_eq (r.session.receiver_endCommit i result r.directory)
  | broken i message =>
    exact Session.decoder_of_receiver_eq (r.session.receiver_breakCommit i message)

/-- Whatever happens to a session, its decoder does what it is called for. -/
theorem decoder_stepAll (r : SessionLedger) (is : List LedgerInput) :
    (r.stepAll is).session.decoder = (r.session.decoder.run (r.decoderCalls is)).2 := by
  induction is generalizing r with
  | nil => rfl
  | cons i is ih =>
    rw [decoderCalls, Decoder.run_append, ← decoder_step]
    exact ih (r.step i)

end SessionLedger

end StreamCatalog
