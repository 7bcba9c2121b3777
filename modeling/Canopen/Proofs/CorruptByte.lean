import Canopen.Proofs.AbortDiscipline
import Canopen.Proofs.Checksums
import Canopen.Proofs.LostSegment

set_option autoImplicit false

namespace Canopen

open Can (Message)
open Sdo

namespace Sdo

/-- The object with one of its bytes inverted. -/
def inverted (object : List UInt8) (k : Nat) : List UInt8 := object.modify k (· ^^^ 0xFF)

variable (object : List UInt8) (k i : Nat)

theorem length_inverted : (inverted object k).length = object.length := List.length_modify ..

theorem segmentCount_inverted : segmentCount (inverted object k) = segmentCount object := by
  rw [segmentCount, segmentCount, length_inverted]

theorem segmentBytes_inverted :
    segmentBytes (inverted object k) i =
      if i * segmentSize ≤ k then
        (segmentBytes object i).modify (k - i * segmentSize) (· ^^^ 0xFF)
      else segmentBytes object i := by
  rw [segmentBytes, segmentBytes, inverted]
  split
  · rename_i h
    rw [List.drop_modify_of_ge _ _ _ _ h, List.take_modify]
  · rename_i h
    rw [List.drop_modify_of_lt _ _ _ _ (Nat.not_le.mp h)]

theorem crc_inverted_ne {object : List UInt8} {k : Nat} (hk : k < object.length) :
    crc (inverted object k) ≠ crc object := by
  refine crc_modify_ne hk fun b h => ?_
  have hzero : (0xFF : UInt8) = 0 := (UInt8.xor_right_inj b).mp (h.trans UInt8.xor_zero.symm)
  exact absurd hzero (by decide)

end Sdo

namespace Server

/-- The server with a byte of block uploads to invert, and no other fault. -/
def inverting (s : Server) (k : Nat) : Server := { s with faults := { invertUploadByte := some k } }

variable {s : Server} {k n start : Nat} {state : State} {a : Address} {crc : Bool}
variable {blockSize : UInt8} {object : List UInt8}

theorem handle_inverting (hs : ∀ t, state ≠ .downloadBlock t) {r : Request} (hr : r.Regular) :
    ((s.inverting k).during state n).handle (r.message s.node)
      = ((s.inverting k).during state (n + 1)).proceed r :=
  handle_request_of_attentive (s := s.inverting k) ⟨rfl, rfl, rfl⟩ hs hr

theorem blockUploadSegment_inverting (t : BlockUpload) (seqno : Nat) :
    ((s.inverting k).during state n).blockUploadSegment t seqno =
      some ((Client.blockSegment (inverted t.data k) (t.start + seqno - 1)
        (UInt8.ofNat seqno)).message .server s.node) := by
  rw [Client.blockSegment, segmentBytes_inverted, segmentCount_inverted]
  rfl

theorem sendBlock_inverting :
    ((s.inverting k).during state n).sendBlock (.blockAt a crc blockSize object start) 1 =
      { frames := (BlockUpload.blockAt a crc blockSize (inverted object k) start).frames s.node 1
        device := (s.inverting k).during
          (.uploadBlock (.blockAt a crc blockSize object start)) n } := by
  have hlength : (BlockUpload.blockAt a crc blockSize (inverted object k) start).length
      = (BlockUpload.blockAt a crc blockSize object start).length := by
    rw [BlockUpload.length, BlockUpload.length]
    simp only [BlockUpload.blockAt, segmentCount_inverted]
  have hframes : ((s.inverting k).during state n).blockUploadSegment
      (.blockAt a crc blockSize object start) = _ :=
    funext fun seqno => blockUploadSegment_inverting _ seqno
  rw [sendBlock, BlockUpload.frames, hlength, hframes, List.filterMap_eq_map']
  have hany : ∀ seqnos : List Nat, (seqnos.any fun seqno =>
      ((s.inverting k).during state n).faults.loseUploadSegment =
        some ((BlockUpload.blockAt a crc blockSize object start).start + seqno - 1)) = false :=
    fun _ => List.any_eq_false.mpr fun _ _ h => by cases of_decide_eq_true h
  simp only [hany, Bool.false_eq_true, if_false]
  rfl

end Server

namespace Client

namespace Call

open Transfer

variable {c : Call Line} {s : Session Line} {srv : Server} {k start n : Nat} {crc : Bool}
variable {object : List UInt8} {request : Request} {attempts : UInt32}

/-- The server has sent the block that begins at `start`, with a byte of the object inverted. -/
structure SendingInverted (c : Call Line) (srv : Server) (k : Nat) (crc : Bool)
    (object : List UInt8) (start : Nat) (s : Session Line) : Prop where
  server : ∃ n, s.world.server =
    (srv.inverting k).during (.uploadBlock (c.block crc object start)) n
  inbox : s.world.inbox = (c.block crc (inverted object k) start).frames c.node 1
  seqno : s.seqno = 0
  buffer : s.buffer = filled (inverted object k) start
  timely : s.deadline ≤ s.world.now + c.config.timeout

structure ReceivedInverted (c : Call Line) (srv : Server) (k : Nat) (crc : Bool)
    (object : List UInt8) (s : Session Line) : Prop where
  inbox : s.world.inbox = []
  server : ∃ start n, start + (c.block crc object start).length = segmentCount object ∧
    s.seqno.toNat = (c.block crc object start).length ∧
    s.world.server = (srv.inverting k).during (.uploadBlock (c.block crc object start)) n
  buffer : s.buffer = filled (inverted object k) (segmentCount object)

theorem ends_close_mismatch (hc : c.link = Line.link {}) (useCrc : c.config.useCrc = true)
    {unused : UInt8} {expected : UInt16} {received : List UInt8}
    (hbuffer : s.buffer.take (s.buffer.length - unused.toNat) = received)
    (hne : Canopen.crc received ≠ expected) :
    Ends (c.close true unused expected) s (fun _ _ => False) fun e t =>
      e = .failed (.crcMismatch expected (Canopen.crc received)) ∧
        ∃ earlier, t.world.sent =
          earlier ++ [abortFrame c.node.value c.target AbortCode.crcError.code] := by
  have hchecked : (true && c.config.useCrc && Canopen.crc received != expected) = true := by
    rw [useCrc]
    exact bne_iff_ne.mpr hne
  rw [close]
  simp only [ends_bind, trim, ends_modify, ends_get, hbuffer, hchecked, if_true, abandon]
  refine ends_abort hc fun ws d => ⟨rfl, s.world.sent, ?_⟩
  rw [Line.sent_send, Request.abortWith, message_abort]

section
variable (hc : c.link = Line.link {}) (hnode : c.node = srv.node)
  (hpatient : c.config.timeout < c.patience)
  (hb : 0 < c.config.blockSize.toNat ∧ c.config.blockSize.toNat ≤ 127)
include hc hnode hpatient hb

omit hc hpatient in
theorem sendingInverted_next
    (hs : ∃ i, s.world.server =
      (srv.inverting k).during (.uploadBlock (c.block crc object start)) i)
    (hfull : (c.block crc object start).length = c.config.blockSize.toNat)
    (hbuffer : s.buffer = filled (inverted object k) (start + (c.block crc object start).length))
    (hi : s.world.inbox = [])
    (hmore : start + (c.block crc object start).length < segmentCount object) :
    let w := s.world.send {} ((c.acknowledgement c.config.blockSize).message c.node)
    SendingInverted c srv k crc object (start + (c.block crc object start).length)
      { s with world := w, seqno := 0, deadline := w.now + c.config.timeout } := by
  have hregular : (c.acknowledgement c.config.blockSize).Regular := .of_plain trivial
  obtain ⟨i, hserver⟩ := hs
  have hnext := Server.confirmBlock_next (s := (srv.inverting k).during .idle (i + 1))
    (t := c.block crc object start) hfull.symm hb hmore
  have hhandle : s.world.server.handle
      ((c.acknowledgement c.config.blockSize).message c.node) =
        { frames := (c.block crc (inverted object k)
            (start + (c.block crc object start).length)).frames c.node 1
          device := (srv.inverting k).during (.uploadBlock
            (c.block crc object (start + (c.block crc object start).length))) (i + 1) } := by
    rw [hserver, hnode, Server.handle_inverting (by simp) hregular]
    exact hnext.trans Server.sendBlock_inverting
  dsimp only
  rw [Line.send_calm hhandle, hi]
  exact ⟨⟨i + 1, rfl⟩, rfl, rfl, hbuffer, Nat.le_refl _⟩

/-- Every block comes as a whole and is acknowledged, up to the last one. -/
theorem ends_receiveBlocks_inverting (hs : SendingInverted c srv k crc object start s)
    (hstart : start < segmentCount object) (hn : segmentCount object - start ≤ n) :
    Ends (c.receiveBlocks request attempts n) s
      (fun _ t => ReceivedInverted c srv k crc object t) fun _ _ => False := by
  -- On the number of segments left.
  induction hleft : segmentCount object - start using Nat.strongRecOn
    generalizing s start request attempts n with
  | ind left ih =>
    obtain ⟨⟨i, hserver⟩, hinbox, hseqno, hbuffer, htimely⟩ := hs
    have hcount : segmentCount (inverted object k) = segmentCount object :=
      segmentCount_inverted object k
    have hlength : (c.block crc object start).length
      = min c.config.blockSize.toNat (segmentCount object - start) := rfl
    have hsent : (c.block crc (inverted object k) start).length
        = (c.block crc object start).length := by
      rw [length_block, hcount, hlength]
    have hzero : s.seqno.toNat = 0 := by
      rw [hseqno]
      rfl
    obtain ⟨j, hj⟩ : ∃ j, (c.block crc object start).length = j + 1 :=
      Nat.exists_eq_add_of_le' (by omega)
    obtain ⟨m, rfl⟩ : ∃ m, n = m + (j + 1) := Nat.exists_eq_add_of_le' (by omega)
    refine ends_receiveBlock (R := fun buffer k' => buffer = filled (inverted object k) k')
      (t := c.block crc (inverted object k) start) hc (by omega) hb.2 rfl
      (fun hk => by rw [filled_succ, hk]) (by omega) hinbox hzero hbuffer htimely
      fun buffer transferred hbuffer' => ?_
    subst hbuffer'
    rw [hsent, hcount]
    have hseq : (UInt8.ofNat (c.block crc object start).length).toNat
        = (c.block crc object start).length := UInt8.toNat_ofNat_of_lt (show _ < 256 by omega)
    by_cases hend : start + (c.block crc object start).length = segmentCount object
    · rw [if_pos hend, ends_pure]
      exact ⟨rfl, ⟨start, i, hend, hseq, hserver⟩, congrArg (filled _) hend⟩
    · have hfull : (c.block crc object start).length = c.config.blockSize.toNat := by omega
      have hmore : start + (c.block crc object start).length < segmentCount object := by omega
      have hsize : UInt8.ofNat (c.block crc object start).length = c.config.blockSize := by
        rw [hfull, UInt8.ofNat_toNat]
      rw [if_neg hend, ends_bind, hsize]
      refine ends_acknowledge hc ?_
      rw [if_pos rfl]
      refine ih _ (by omega) (sendingInverted_next (s := { s with
        world := { s.world with inbox := [] }
        deadline := s.world.now + c.config.timeout
        seqno := c.config.blockSize
        buffer := filled (inverted object k) (start + (c.block crc object start).length)
        transferred }) hnode hb ⟨i, hserver⟩ hfull rfl rfl hmore) hmore (by omega) rfl

theorem ends_uploadBlock_inverting (useCrc : c.config.useCrc = true) (serverCrc : srv.crc = true)
    (hi : s.world.inbox = []) (hs : ∃ n, s.world.server = (srv.inverting k).during .idle n)
    (hbuffer : s.buffer = []) (hobject : srv.objects.get? c.target = some object)
    (hk : k < object.length) (hp : segmentCount object ≤ c.patience) :
    Ends c.uploadBlock s (fun _ _ => False) fun e t =>
      e = .failed (.crcMismatch (Canopen.crc object) (Canopen.crc (inverted object k))) ∧
        ∃ earlier, t.world.sent =
          earlier ++ [abortFrame c.node.value c.target AbortCode.crcError.code] := by
  obtain ⟨n, hn⟩ := hs
  have hcrc : true = (c.config.useCrc && srv.crc) := by rw [useCrc, serverCrc]; rfl
  have hinitiation : s.world.server.handle (c.initiation.message c.node) =
      { frames := [(Response.announceBlocks srv.crc c.target
          (some (UInt32.ofNat object.length))).message c.node]
        device := (srv.inverting k).during (.uploadBlockInitiated (c.block true object 0))
          (n + 1) } := by
    have hregular : c.initiation.Regular := .of_plain trivial
    rw [hn, hnode, Server.handle_inverting (by simp) hregular, hcrc]
    exact Server.proceed_initiateBlockUpload_plain (s := srv.inverting k) rfl rfl hobject hb
  rw [uploadBlock]
  simp only [ends_bind]
  refine ends_exchange_calm hc hpatient hi hinitiation (.of_plain trivial)
    fun w d hw hserver _ => ?_
  simp only [Response.announceBlocks, Option.isSome_some, Option.getD_some, if_true, ends_bind,
    ends_modify]
  have hstart : w.server.handle (Request.startBlockUpload.message c.node) =
      { frames := (c.block true (inverted object k) 0).frames c.node 1
        device :=
          (srv.inverting k).during (.uploadBlock (c.block true object 0)) (n + 1 + 1) } := by
    have hregular : Request.startBlockUpload.Regular := .of_plain trivial
    rw [hserver, hnode, Server.handle_inverting (by simp) hregular]
    exact Server.sendBlock_inverting
  rw [uploadBlocks_eq]
  simp only [ends_bind]
  rw [send, ends_sendMessage hc, Line.send_calm hstart, hw]
  simp only [ends_modify]
  -- All segments come as they should, as nothing but the data is wrong with them.
  refine Ends.mono (ends_receiveBlocks_inverting hc hnode hpatient hb
    (show SendingInverted c srv k true object 0 _ from
      ⟨⟨_, rfl⟩, rfl, rfl, hbuffer, Nat.le_refl _⟩)
    (segmentCount_pos object) hp) ?_ fun _ _ hf => hf.elim
  rintro _ t ⟨hinbox, ⟨start, m, hend, hseqno, hm⟩, hbuffer'⟩
  have hlast : t.world.server.handle ((c.acknowledgement t.seqno).message c.node) =
      { frames := [(Response.endBlockUpload
          (UInt8.ofNat (segmentCount object * segmentSize - object.length))
          (Canopen.crc object)).message c.node]
        device := (srv.inverting k).during .endUploadBlock (m + 1) } := by
    have hregular : (c.acknowledgement t.seqno).Regular := .of_plain trivial
    rw [hm, hnode, Server.handle_inverting (by simp) hregular]
    exact Server.confirmBlock_end (s := (srv.inverting k).during .idle (m + 1))
      (t := c.block true object start) rfl hseqno hb (Nat.not_lt.mpr (Nat.le_of_eq hend.symm))
  -- The checksum is that of the object, but the bytes are not.
  have hreceived : t.buffer.take (t.buffer.length
      - (UInt8.ofNat (segmentCount object * segmentSize - object.length)).toNat)
        = inverted object k := by
    have htaken := take_filled_sub_unused (inverted object k)
    rw [segmentCount_inverted, length_inverted] at htaken
    rw [hbuffer', toNat_unused]
    exact htaken
  simp only [ends_get, serverCrc]
  refine ends_exchange_calm hc hpatient hinbox hlast (Response.regular_endBlockUpload object _)
    fun w d _ _ _ => ?_
  exact ends_close_mismatch hc useCrc hreceived (crc_inverted_ne hk)

end
end Call

theorem uploadBlock_inverted {client : Client Line} {l : Line} {target : Address}
    {object : List UInt8} {k : Nat} (hc : client.link = Line.link {})
    (useCrc : client.config.useCrc = true) (serverCrc : l.server.crc = true)
    (faults : l.server.faults = { invertUploadByte := some k }) (idle : l.server.state = .idle)
    (stored : l.server.objects.get? target = some object) (inside : k < object.length)
    (patient : l.inbox.length + client.config.timeout + segmentCount object < client.patience) :
    let o := client.uploadBlock l.server.node.value target l
    o.1 = .error (.failed (.crcMismatch (crc object) (crc (inverted object k)))) ∧
      ∃ earlier, o.2.sent =
        earlier ++ [abortFrame l.server.node.value target AbortCode.crcError.code] := by
  let c := client.call l.server.node target .upload
  have hidle : ∃ n, l.server = (l.server.inverting k).during .idle n := by
    refine ⟨l.server.received, ?_⟩
    rw [Server.inverting, ← faults, ← idle]
    rfl
  have hnode : c.node = l.server.node := rfl
  have hends := Call.ends_uploadBlock_inverting (c := c) (s := c.start .block l) hc hnode
    (show client.config.timeout < client.patience by omega)
    (Config.blockSize_of_valid client.valid) useCrc serverCrc rfl hidle rfl stored inside
    (show segmentCount object ≤ client.patience by omega)
  dsimp only
  rw [uploadBlock, transfer_node]
  rcases Call.run_of_ends hc hends with ⟨_, _, hfalse, -⟩ | ⟨e, t, ⟨rfl, hsent⟩, hrun⟩ | ⟨hmany, -⟩
  · exact hfalse.elim
  · rw [hrun]
    exact ⟨rfl, hsent⟩
  · have hmany' : client.patience ≤ l.inbox.length := hmany
    omega

end Client

namespace Network

open Client

/-- An inverted byte never goes unnoticed in a block upload with a checksum: the client says which
checksum it expected and which it found, and the abort is the last that it sends. -/
theorem inverted_byte_caught {n : Network} {tap : Nat} {before after : List Server} {s : Server}
    (number : Nat) (h : n.Hosts tap before s after) (config : Config) (valid : config.Valid)
    (useCrc : config.useCrc = true) (serverCrc : s.crc = true) {k : Nat}
    (faults : s.faults = { invertUploadByte := some k }) (idle : s.state = .idle)
    {target : Address} {object : List UInt8} (stored : s.objects.get? target = some object)
    (inside : k < object.length) :
    ∃ p, ∀ patience, p ≤ patience →
      let o := (client tap number config valid patience).perform s.node.value target .uploadBlock n
      let received := object.modify k (· ^^^ 0xFF)
      o.1 = .error (.failed (.crcMismatch (crc object) (crc received))) ∧
        crc received ≠ crc object ∧
        ∃ earlier, o.2.requests s.node =
          n.requests s.node ++ earlier ++ [abortFrame s.node.value target 0x05040004] := by
  refine ⟨(n.line tap s).inbox.length + config.timeout + segmentCount object + 1,
    fun patience hp => ?_⟩
  have hlink : (Line.client {} config valid patience).link = Line.link {} := rfl
  obtain ⟨hresult, earlier, hsent⟩ := uploadBlock_inverted (l := n.line tap s) hlink useCrc
    serverCrc faults idle stored inside hp
  let client := client tap number config valid patience
  have hsimulates : Simulates (Shows s.node tap number before after (n.requests s.node) n.warnings)
      s.node client.link (Line.link {}) := simulates h.alone
  have halike := hsimulates.transfer_alike (h.shows number) target .upload .block
    Call.lockstep_uploadBlock
  have hfailed := halike.result.trans hresult
  refine ⟨congrArg (Except.map Value.bytes) hfailed, crc_inverted_ne inside, earlier, ?_⟩
  have hshows := halike.failure _ hfailed
  exact hshows.sent.trans ((congrArg _ hsent).trans (List.append_assoc ..).symm)

theorem inverted_byte_caught_in_second_segment :
    ∃ p, ∀ patience, p ≤ patience →
      let s : Server :=
        { node := ⟨5, by decide, by decide⟩
          objects := ⟨[(⟨0x2000, 0⟩, [1, 2, 3, 4, 5, 6, 7, 8])]⟩
          faults := { invertUploadByte := some 7 } }
      let n : Network := { bus := { queues := [[]], devices := [.server s] } }
      ((client 0 0 {} (by decide) patience).perform 5 ⟨0x2000, 0⟩ .uploadBlock n).1
        = .error (.failed (.crcMismatch (crc [1, 2, 3, 4, 5, 6, 7, 8])
            (crc [1, 2, 3, 4, 5, 6, 7, 0xF7]))) := by
  let s : Server :=
    { node := ⟨5, by decide, by decide⟩
      objects := ⟨[(⟨0x2000, 0⟩, [1, 2, 3, 4, 5, 6, 7, 8])]⟩
      faults := { invertUploadByte := some 7 } }
  let n : Network := { bus := { queues := [[]], devices := [.server s] } }
  have h : n.Hosts 0 [] s [] := ⟨rfl, by decide, rfl, by decide⟩
  have hstored : s.objects.get? ⟨0x2000, 0⟩ = some [1, 2, 3, 4, 5, 6, 7, 8] := by decide
  obtain ⟨p, hp⟩ := inverted_byte_caught 0 h {} (by decide) rfl rfl rfl rfl hstored (by decide)
  exact ⟨p, fun patience hle => (hp patience hle).1⟩

end Network
end Canopen
