import Canopen.Proofs.DownloadSafety

/-!
A block download that loses one acknowledgement and nothing else. The client sends the last segment
of the block again, but the server has the block already. Unless that was the last one, the server
makes the client send the whole block again, and takes it for the next one; and else it is through
with segments. Either way the download fails.
-/

set_option autoImplicit false

namespace Canopen

open Sdo

def Losses.answerTo (frame : Nat) : Losses := { answer := fun i _ => i = frame }

namespace Line

variable {x : Losses} {node : NodeId} {P P' : Nat → Server → Prop}
variable {G : Response → Nat → Server → Prop} {m : Can.Message} {i : Nat} {s : Server}

theorem Meets.mono (h : Meets x node P G m i s) (hP : ∀ i s, P i s → P' i s) :
    Meets x node P' G m i s where
  lost hi := hP _ _ (h.lost hi)
  taken hi := (h.taken hi).imp (And.imp_right (hP _ _)) fun ⟨q, hframes, hunheard, hheard⟩ =>
    ⟨q, hframes, fun hq => hP _ _ (hunheard hq), hheard⟩

theorem Meets.of_answer {q : Response} {s' : Server} (hrequest : x.request i = false)
    (hhandle : s.handle m = { frames := [q.message node], device := s' })
    (unheard : x.answer i 0 = true → P (i + 1) s')
    (heard : x.answer i 0 = false → q.Regular ∧ G q (i + 1) s') : Meets x node P G m i s where
  lost hi := absurd (hi.symm.trans hrequest) (by decide)
  taken _ := by
    rw [hhandle]
    exact .inr ⟨q, rfl, unheard, fun hi => .inr (heard hi)⟩

end Line

namespace Server

variable {srv : Server} {data : List UInt8} {a : Address} {crc : Bool} {start length base q i : Nat}

/-- A download with more in its buffer than it should have by now. -/
def BlockDownload.Swollen (data : List UInt8) (start : Nat) (t : BlockDownload) : Prop :=
  t.size = some data.length ∧ (start + t.seqno.toNat) * segmentSize < t.buffer.length

theorem drifts_swollen : srv.Drifts data (BlockDownload.Swollen data) where
  accept := by
    rintro start t ⟨hsize, hlong⟩ hlt
    have hseqno : (UInt8.ofNat (t.seqno.toNat + 1)).toNat = t.seqno.toNat + 1 := by
      have hb := srv.blockSize.toNat_lt
      exact UInt8.toNat_ofNat_of_lt (show _ < 256 by omega)
    refine ⟨hsize, ?_⟩
    dsimp only
    rw [hseqno, List.length_append, Vector.length_toList, ← Nat.add_assoc, Nat.succ_mul]
    exact Nat.add_lt_add_right hlong 7
  again := by
    rintro start t ⟨hsize, hlong⟩ - -
    exact ⟨hsize, Nat.lt_of_le_of_lt (Nat.mul_le_mul_right _ (Nat.add_le_add_left
      (Nat.zero_le _) _)) hlong⟩
  next := by
    rintro start t ⟨hsize, hlong⟩ hseqno -
    rw [hseqno] at hlong
    exact ⟨hsize, hlong⟩

/-- What the server has behind a block is more than the client sent in front of it. -/
theorem BlockDownload.swollen_behind (h0 : 0 < length) :
    Swollen data start (.upTo a crc data (start + length) 0) := by
  refine ⟨rfl, ?_⟩
  rw [upTo, length_filled]
  refine Nat.mul_lt_mul_of_pos_right ?_ (by decide)
  exact Nat.add_lt_add_right (Nat.lt_add_of_pos_right h0) 0

theorem BlockDownload.Swollen.refused {t : BlockDownload} {object : List UInt8}
    (h : t.Swollen data start) (hend : start + t.seqno.toNat = segmentCount data)
    (hobject : object = t.buffer.take (t.buffer.length
      - (segmentCount data * segmentSize - data.length))) :
    t.size.all (· = object.length) = false := by
  obtain ⟨hsize, hlong⟩ := h
  have hspec := segmentCount_spec data
  rw [hend] at hlong
  rw [hsize, hobject, List.length_take]
  refine decide_eq_false ?_
  omega

def InStep (srv : Server) (a : Address) (crc : Bool) (data : List UInt8) (start base q i : Nat)
    (s : Server) : Prop :=
  i = base + q ∧ ∃ k, s = srv.during (.downloadBlock (.upTo a crc data start q)) k

theorem InStep.inner {s : Server} (h : srv.InStep a crc data start base q i s)
    (hf : srv.faults = { switchProtocol := false }) (hb : srv.blockSize.toNat ≤ 127)
    (hl : length = min srv.blockSize.toNat (segmentCount data - start)) (hq : q + 1 < length) :
    let r := s.handle
      ((Client.blockSegment data (start + (q + 1) - 1) (UInt8.ofNat (q + 1))).message .client
        srv.node)
    r.frames = [] ∧ srv.InStep a crc data start base (q + 1) (i + 1) r.device := by
  obtain ⟨hi, k, rfl⟩ := h
  rw [handle_inner_segment hf hb hl (Nat.succ_pos q) hq (by omega), if_pos rfl]
  exact ⟨rfl, by omega, k + 1, rfl⟩

theorem InStep.last {s : Server} (h : srv.InStep a crc data start base q i s)
    (hf : srv.faults = { switchProtocol := false }) (hb : srv.blockSize.toNat ≤ 127)
    (hl : length = min srv.blockSize.toNat (segmentCount data - start)) (hq : q + 1 = length) :
    ∃ k, s.handle ((Client.blockSegment data (start + length - 1)
        (UInt8.ofNat length)).message .client srv.node) =
      { frames := [(Response.confirmBlock (UInt8.ofNat length) srv.blockSize).message srv.node]
        device := srv.during (.behindBlock a crc data start length) k } := by
  obtain ⟨-, k, rfl⟩ := h
  rw [handle_last_segment hf hb hl (by omega), if_pos hq.symm, if_pos hq.symm]
  exact ⟨k + 1, rfl⟩

end Server

namespace Client.Call

open Transfer

variable {c : Call Line} {s : Session Line} {srv : Server} {data : List UInt8} {crc : Bool}
variable {start length lostAt m : Nat}

theorem swelling (data : List UInt8) (h : c.Exposed (.answerTo lostAt) srv) :
    c.Drifting (.answerTo lostAt) srv data (Server.BlockDownload.Swollen data) (lostAt + 1) where
  toExposed := h
  drifts := Server.drifts_swollen
  restart := by
    intro i hi hlost
    have hat : i = lostAt := of_decide_eq_true hlost
    omega

/-- A server that is through with the segments does not acknowledge the last one again. -/
theorem past_meets (h : c.Exposed (.answerTo lostAt) srv) (hlt : length < 128) (h0 : 0 < length)
    (hend : start + length = segmentCount data) {i : Nat} {t : Server} (hi : lostAt < i)
    (ht : srv.PastSegments length t) :
    Line.Meets (.answerTo lostAt) c.node (fun i t => lostAt < i ∧ srv.PastSegments length t)
      (fun q _ _ => ∀ y size, q ≠ .confirmBlock y size)
      ((blockSegment data (start + length - 1) (UInt8.ofNat length)).message .client c.node)
      i t := by
  let segment := blockSegment data (start + length - 1) (UInt8.ofNat length)
  have hnumber : segment.seqno.toNat = length := UInt8.toNat_ofNat_of_lt (show _ < 256 by omega)
  have hlast : segment.last = true := decide_eq_true (by omega)
  have hagain := Server.handle_last_again h.faults hlast (by omega) (by rwa [hnumber])
  rw [hnumber] at hagain
  have hheard : (Losses.answerTo lostAt).answer i 0 = false := decide_eq_false (Nat.ne_of_gt hi)
  rw [h.node.trans ht.1.node.symm]
  refine ⟨fun hl => absurd hl (by simp [Losses.answerTo]), fun _ => ?_⟩
  rcases hagain with ⟨hframes, hdevice⟩ | ⟨q, hframes, hq, -⟩
  · refine .inl ⟨hframes, Nat.lt_succ_of_lt hi, ?_⟩
    rcases hdevice with hsame | hspent
    · rw [hsame]
      exact ⟨ht.1.during _ _, ht.2.imp_right fun hspent => hspent.during _⟩
    · exact ⟨hspent.like, .inr hspent⟩
  · exact .inr ⟨q, hframes, fun hl => absurd (hl.symm.trans hheard) (by decide), fun _ => hq⟩

section
variable (h : c.Exposed (.answerTo lostAt) srv) (hb : srv.blockSize.toNat ≤ 127)
  (hl : length = min srv.blockSize.toNat (segmentCount data - start)) (h0 : 0 < length)
  (hs : s.world.Rests srv (.downloadBlock (.upTo c.target crc data start 0)))
include h hb hl h0 hs

theorem ends_downloadBlockFrom_inStep {P : Nat → Server → Prop}
    {G : Response → Nat → Server → Prop} {rounds : Nat}
    (meets : ∀ i t, P i t → Line.Meets (.answerTo lostAt) c.node P G
      ((blockSegment data (start + length - 1) (UInt8.ofNat length)).message .client c.node) i t)
    (inStep : ∀ i t, srv.InStep c.target crc data start s.world.sent.length (length - 1) i t →
      P i t)
    {Q : BlockSize → Session Line → Prop}
    (again : ∀ y size w n d, w.inbox = [] → y.toNat < length →
      G (.confirmBlock y size) w.sent.length w.server →
        Ends (c.downloadBlockFrom data start length (y.toNat + 1) rounds)
          { s with world := w, retries := n, deadline := d } Q fun _ _ => True)
    (done : ∀ y next w n d, w.inbox = [] → y.toNat = length →
      G (.confirmBlock y (BlockSize.value next)) w.sent.length w.server →
        Q next { s with world := w, retries := n, deadline := d }) :
    Ends (c.downloadBlockFrom data start length 1 (rounds + 1)) s Q fun _ _ => True := by
  obtain ⟨hi, k, hk⟩ := hs
  refine ends_downloadBlockFrom_round h.link
    (K := fun q => srv.InStep c.target crc data start s.world.sent.length (q - 1))
    (Nat.le_refl 1) h0 ?_ inStep meets hi ⟨rfl, k, hk⟩ again done
  intro q i t hq hlt ht
  obtain ⟨j, rfl⟩ := Nat.exists_eq_add_of_le' hq
  rw [h.node]
  exact ⟨fun hlost => absurd hlost (by simp [Losses.answerTo]),
    fun _ => ht.inner h.faults hb hl hlt⟩

theorem ends_downloadBlockFrom_before {rounds : Nat} (hmore : start + length < segmentCount data)
    (hbefore : s.world.sent.length + length ≤ lostAt) :
    Ends (c.downloadBlockFrom data start length 1 rounds) s
      (fun next t => next.value = srv.blockSize ∧
        t.world.sent.length = s.world.sent.length + length ∧
          t.world.Rests srv (.downloadBlock (.upTo c.target crc data (start + length) 0)))
      fun _ _ => True := by
  cases rounds with
  | zero => trivial
  | succ rounds =>
    have hlength : (UInt8.ofNat length).toNat = length :=
      UInt8.toNat_ofNat_of_lt (show _ < 256 by omega)
    refine ends_downloadBlockFrom_inStep h hb hl h0 hs
      (P := srv.InStep c.target crc data start s.world.sent.length (length - 1))
      (G := fun q i t => q = .confirmBlock (UInt8.ofNat length) srv.blockSize ∧
        i = s.world.sent.length + length ∧
          ∃ k, t = srv.during (.downloadBlock (.upTo c.target crc data (start + length) 0)) k)
      ?_ (fun i t ht => ht) ?_ ?_
    · intro i t ht
      have hi : i = s.world.sent.length + (length - 1) := ht.1
      obtain ⟨k, hhandle⟩ := ht.last h.faults hb hl (by omega)
      rw [Server.State.behindBlock, if_neg (by omega)] at hhandle
      rw [h.node]
      refine .of_answer rfl hhandle (fun hlost => ?_) fun _ => ⟨.of_plain trivial, rfl, ?_, k, rfl⟩
      · have hat : i = lostAt := of_decide_eq_true hlost
        omega
      · omega
    · rintro y size w n d - hlt ⟨hy, -⟩
      cases hy
      omega
    · rintro y next w n d hi - ⟨hy, hsent, hk⟩
      exact ⟨(Response.confirmBlock.inj hy).2, hsent, hi, hk⟩

theorem ends_downloadBlockFrom_last_unacknowledged {rounds : Nat}
    (hlost : s.world.sent.length + length = lostAt + 1)
    (hend : start + length = segmentCount data) :
    Ends (c.downloadBlockFrom data start length 1 rounds) s (fun _ _ => False)
      fun _ _ => True := by
  cases rounds with
  | zero => trivial
  | succ rounds =>
    refine ends_downloadBlockFrom_inStep h hb hl h0 hs
      (P := fun i t => i = lostAt ∧
          srv.InStep c.target crc data start s.world.sent.length (length - 1) i t ∨
        lostAt < i ∧ srv.PastSegments length t)
      (G := fun q _ _ => ∀ y size, q ≠ .confirmBlock y size) ?_ ?_
      (fun y size _ _ _ _ _ hq => absurd rfl (hq y size))
      fun y next _ _ _ _ _ hq => absurd rfl (hq y next.value)
    · rintro i t (⟨rfl, ht⟩ | ⟨hi, hpast⟩)
      · obtain ⟨k, hhandle⟩ := ht.last h.faults hb hl (by omega)
        rw [Server.State.behindBlock, if_pos hend] at hhandle
        rw [h.node]
        refine .of_answer rfl hhandle (fun _ => .inr ⟨Nat.lt_succ_self i, srv.like_during _ _,
          .inl ⟨_, rfl⟩⟩) fun hheard => ?_
        exact absurd hheard (by simp [Losses.answerTo])
      · exact (past_meets h (by omega) h0 hend hi hpast).mono fun _ _ => .inr
    · intro i t ht
      exact .inl ⟨by have := ht.1; omega, ht⟩

/-- Another block, whose acknowledgement is lost. The server has begun the next one, and takes this
one for it. -/
theorem ends_downloadBlockFrom_inner_unacknowledged {rounds : Nat}
    (hlost : s.world.sent.length + length = lostAt + 1)
    (hend : start + length ≠ segmentCount data) :
    Ends (c.downloadBlockFrom data start length 1 rounds) s
      (fun next t => next.value = srv.blockSize ∧ t.world.inbox = [] ∧
        lostAt + 1 ≤ t.world.sent.length ∧
          srv.Filling (Server.BlockDownload.Swollen data) (start + length)
            (min srv.blockSize.toNat (segmentCount data - (start + length))) t.world.server)
      fun _ _ => True := by
  have hswelling := swelling data h
  cases rounds with
  | zero => trivial
  | succ rounds =>
    -- Up to the lost answer both are in step. Behind it the server is in the next block.
    refine ends_downloadBlockFrom_inStep h hb hl h0 hs
      (P := fun i t => i = lostAt ∧
          srv.InStep c.target crc data start s.world.sent.length (length - 1) i t ∨
        lostAt + 1 ≤ i ∧ srv.Pending data (Server.BlockDownload.Swollen data) start length t)
      (G := fun q i t => lostAt + 1 ≤ i ∧
        Acknowledges srv data (Server.BlockDownload.Swollen data) start length q t) ?_ ?_ ?_ ?_
    · rintro i t (⟨rfl, ht⟩ | ht)
      · obtain ⟨k, hhandle⟩ := ht.last h.faults hb hl (by omega)
        rw [Server.State.behindBlock, if_neg hend] at hhandle
        rw [h.node]
        refine .of_answer rfl hhandle (fun _ => .inr ⟨Nat.le_refl _, .inl ⟨_, k, rfl,
          Server.BlockDownload.swollen_behind h0, h0⟩⟩) fun hheard => ?_
        exact absurd hheard (by simp [Losses.answerTo])
      · exact (pending_meets hswelling hb hl h0 ht).mono fun _ _ => .inr
    · intro i t ht
      exact .inl ⟨by have := ht.1; omega, ht⟩
    · rintro y size w n d hi hlt ⟨hsent, hy⟩
      obtain ⟨-, ⟨-, hfilling⟩ | ⟨heq, -⟩⟩ := hy y size rfl
      · refine (ends_downloadBlockFrom_lossy hswelling hb hl h0 (Nat.le_add_left 1 _) hlt hi
          hsent hfilling).mono ?_ fun _ _ he => he
        rintro next t ⟨hnext, hi', hsent', hbehind⟩
        rw [Server.Behind, if_neg hend] at hbehind
        exact ⟨hnext, hi', hsent', hbehind⟩
      · omega
    · rintro y next w n d hi heq ⟨hsent, hy⟩
      obtain ⟨hsize, ⟨hlt, -⟩ | ⟨-, hbehind⟩⟩ := hy y next.value rfl
      · omega
      · rw [Server.Behind, if_neg hend] at hbehind
        exact ⟨hsize, hi, hsent, hbehind⟩

end

/-- All blocks, of which the acknowledgement of number `m` is lost, counted from the one that begins
at `start`. What the server has in the end is too long. -/
theorem ends_downloadBlocks_unacknowledged (h : c.Exposed (.answerTo lostAt) srv)
    {size : BlockSize} (hsize : size.value = srv.blockSize)
    (hlt : start + m * srv.blockSize.toNat < segmentCount data)
    (hlost : s.world.sent.length
      + min ((m + 1) * srv.blockSize.toNat) (segmentCount data - start) = lostAt + 1)
    (hs : s.world.Rests srv (.downloadBlock (.upTo c.target crc data start 0))) :
    Ends (c.downloadBlocks data start size) s
      (fun _ t => t.world.inbox = [] ∧ ∃ start length, start + length = segmentCount data ∧
        srv.Filled (Server.BlockDownload.Swollen data) start length t.world.server)
      fun _ _ => True := by
  -- On the number of blocks in front of the one whose acknowledgement is lost.
  induction m generalizing start s size with
  | zero =>
    have hpos := size.pos
    have hle := size.le
    have hb : size.value.toNat = srv.blockSize.toNat := congrArg UInt8.toNat hsize
    generalize hlength : min srv.blockSize.toNat (segmentCount data - start) = length
    refine ends_downloadBlocks_step h.link (by omega) (hb ▸ hlength) ?_
    by_cases hend : start + length = segmentCount data
    · exact (ends_downloadBlockFrom_last_unacknowledged h (by omega) hlength.symm (by omega) hs
        (by omega) hend).mono (fun _ _ hf => hf.elim) fun _ _ he => he
    · refine (ends_downloadBlockFrom_inner_unacknowledged h (by omega) hlength.symm (by omega) hs
        (by omega) hend).mono ?_ fun _ _ he => he
      -- From here on the server has more than it should, and nothing makes that less.
      rintro next t ⟨hnext, hi, hsent, hfilling⟩
      refine (ends_downloadBlocks_lossy
        (s := { t with transferred := min ((start + length) * segmentSize) data.length })
        (swelling data h) hnext (by omega) hi hsent hfilling).mono ?_ fun _ _ he => he
      rintro _ u ⟨hi', -, start, length, hend, -, -, hfilled⟩
      exact ⟨hi', start, length, hend, hfilled⟩
  | succ m ih =>
    have hpos := size.pos
    have hle := size.le
    have hb : size.value.toNat = srv.blockSize.toNat := congrArg UInt8.toNat hsize
    have hm := Nat.add_one_mul m srv.blockSize.toNat
    have hm' := Nat.add_one_mul (m + 1) srv.blockSize.toNat
    have hlength : min size.value.toNat (segmentCount data - start) = srv.blockSize.toNat := by
      omega
    refine ends_downloadBlocks_step h.link (by omega) hlength ?_
    refine (ends_downloadBlockFrom_before h (by omega) (by omega) (by omega) hs (by omega)
      (by omega)).mono ?_ fun _ _ he => he
    rintro next t ⟨hnext, hsent, hrests⟩
    refine ih hnext (by omega) ?_ hrests
    show t.world.sent.length + _ = _
    omega

theorem ends_downloadBlock_unacknowledged (h : c.Exposed (.answerTo lostAt) srv)
    (hpos : 0 < srv.blockSize.toNat) (hs : s.world.Rests srv .idle) (hd : data.length < sizeLimit)
    (hm : m * srv.blockSize.toNat < segmentCount data)
    (hlost : s.world.sent.length + min ((m + 1) * srv.blockSize.toNat) (segmentCount data)
      = lostAt) :
    Ends (c.downloadBlock data) s (fun _ _ => False) fun _ _ => True := by
  obtain ⟨hi, k, hk⟩ := hs
  rw [downloadBlock, exchange]
  simp only [ends_bind, ends_modify]
  refine ends_ask_lossy (s := { s with announced := some data.length }) h.link
    (P := fun i t => i = s.world.sent.length ∧ t = srv.during .idle k)
    (G := fun q i t => q = .confirmBlockDownload srv.crc c.target srv.blockSize ∧
      i = s.world.sent.length + 1 ∧ t = srv.during (.downloadBlock
        (.upTo c.target (c.config.useCrc && srv.crc) data 0 0)) (k + 1)) hi ⟨rfl, hk⟩ ?_ ?_
  · rintro i t ⟨rfl, rfl⟩
    rw [h.node]
    refine .of_answer rfl (Server.handle_initiation h.faults hd k _ _) (fun hat => ?_)
      fun _ => ⟨.of_plain trivial, rfl, rfl, rfl⟩
    have hat' : s.world.sent.length = lostAt := of_decide_eq_true hat
    have hm' := Nat.add_one_mul m srv.blockSize.toNat
    omega
  · rintro q w n d hi' ⟨rfl, hsent, hserver⟩
    simp only [ends_bind]
    refine ends_checkBlockSize_lossy h.link fun size hsize => ?_
    refine (ends_downloadBlocks_unacknowledged (m := m) h hsize (by omega) ?_
      ⟨hi', k + 1, hserver⟩).mono ?_ fun _ _ he => he
    · show w.sent.length + _ = _
      omega
    · rintro _ u ⟨hi'', start, length, hend, t, j, ht, hswollen, hseqno⟩
      refine (ends_endBlockDownload_lossy h hi'' ht (Traffic.regular_endBlockDownload data _)).mono
        ?_ fun _ _ he => he
      intro q v hq
      cases q with
      | confirmBlockDownloadEnd =>
        obtain ⟨object, j, hobject, hfits, -⟩ := hq rfl
        rw [toNat_unused] at hobject
        rw [hswollen.refused (by omega) hobject] at hfits
        cases hfits
      | _ => exact ends_unexpected_lossy h.link _

end Client.Call

namespace Client

open Sdo (Address segmentCount)

/-- No download succeeds that loses the acknowledgement of one block, whichever that is. Block
number `m` ends with the frame that many segments behind the start of the download. -/
theorem lost_acknowledgement_fails (config : Config) (valid : config.Valid) (patience : Nat)
    (l : Line) (faultless : l.server.faults = {}) (idle : l.server.state = .idle)
    (blocks : 0 < l.server.blockSize.toNat) (target : Address) (data : List UInt8) (m : Nat)
    (within : m * l.server.blockSize.toNat < segmentCount data) (v : Value) :
    let x := Losses.answerTo
      (l.sent.length + min ((m + 1) * l.server.blockSize.toNat) (segmentCount data))
    ((Line.client x config valid patience).perform l.server.node.value target (.downloadBlock data)
      l).1 ≠ .ok v := by
  intro x h
  obtain ⟨⟨⟩, hok, -⟩ := Outcome.map_ok h
  rw [downloadBlock] at hok
  split at hok
  · rename_i hsize
    obtain ⟨t, hfalse, -⟩ := transfer_ends rfl (Call.ends_downloadBlock_unacknowledged
      (exposed rfl faultless .download) blocks (Call.rests_start _ .block idle) hsize within rfl)
      hok
    exact hfalse
  · cases hok

theorem lost_acknowledgement_fails_for_first_of_two_blocks :
    let l : Line :=
      { server :=
          { node := ⟨5, by decide, by decide⟩
            objects := ⟨[(⟨0x2000, 0⟩, [1])]⟩
            blockSize := 2 } }
    let config : Config := { timeoutMs := 1, pollIntervalUs := 1000 }
    let data : List UInt8 := List.replicate 21 7
    let o := (Line.client (.answerTo 2) config (by decide) 20).perform 5 ⟨0x2000, 0⟩
      (.downloadBlock data) l
    o.1 ≠ .ok .done := by
  intro l config data
  have hframe : l.sent.length
      + min ((0 + 1) * l.server.blockSize.toNat) (segmentCount data) = 2 := by
    decide
  have hfails := lost_acknowledgement_fails config (by decide) 20 l rfl rfl (by decide)
    ⟨0x2000, 0⟩ data 0 (by decide) .done
  rw [hframe] at hfails
  exact hfails

/-- The object that comes of the segments that came twice is refused, and the old one stays. -/
theorem download_is_refused_after_lost_acknowledgement :
    let l : Line :=
      { server :=
          { node := ⟨5, by decide, by decide⟩
            objects := ⟨[(⟨0x2000, 0⟩, [1])]⟩
            blockSize := 2 } }
    let config : Config := { timeoutMs := 1, pollIntervalUs := 1000 }
    let data : List UInt8 := List.replicate 21 7
    let o := (Line.client (.answerTo 2) config (by decide) 20).perform 5 ⟨0x2000, 0⟩
      (.downloadBlock data) l
    o.1 = .error (.failed (.serverAbort ⟨0x2000, 0⟩ (.known .crcError))) ∧
      o.2.server.objects.get? ⟨0x2000, 0⟩ = some [1] := by
  decide +kernel

end Client
end Canopen
