import Canopen.Proofs.BlockSender
import Canopen.Proofs.Answers
import Canopen.Proofs.Openings
import Canopen.Proofs.SteadyStreams

/-!
How long a block download can be kept going. Each block is sent once, and each acknowledgement that
falls short of its block has the rest of it sent again. Such acknowledgements take no retries, so
the server may give as many of them as it likes.
-/

set_option autoImplicit false

namespace Canopen.Client

open Can (Message TransportError)
open Sdo
open Transfer Sending

variable {σ S : Type}

namespace Conduct

/-- How many of the messages fit, each of them in the state in which it is heard. -/
def tally (k : Conduct S) (fits : S → Message → Bool) : S → List Message → Nat
  | _, [] => 0
  | s, m :: ms =>
    (fits s m).toNat +
      match k.hear s m with
      | .goes _ s' => k.tally fits s' ms
      | _ => 0

variable {k : Conduct S} {fits : S → Message → Bool}

theorem tally_append {heard asked due : List Message} {s : S}
    (h : k.Leads heard asked (.goes due s)) (ms : List Message) :
    k.tally fits k.first (heard ++ ms) = k.tally fits k.first heard + k.tally fits s ms := by
  generalize hmove : Move.goes due s = move at h
  induction h generalizing due s ms with
  | start =>
    cases hmove
    simp [tally]
  | @hear heard asked due' s' m _ ih =>
    rw [List.append_assoc, ih _ rfl, ih _ rfl]
    simp only [List.cons_append, List.nil_append, tally, ← hmove]
    omega

theorem tally_snoc {heard asked due : List Message} {s : S}
    (h : k.Leads heard asked (.goes due s)) (m : Message) :
    k.tally fits k.first (heard ++ [m]) = k.tally fits k.first heard + (fits s m).toNat := by
  rw [tally_append h, tally]
  cases k.hear s m <;> rfl

end Conduct

namespace Sending

/-- An acknowledgement of a part of the block that it is for. -/
def fallsShort : Sending → Message → Bool
  | .block _ _ length, m =>
    match Response.ofMessage m with
    | .ok (.confirmBlock seqno _) => seqno.toNat < length
    | _ => false
  | _, _ => false

/-- How many segments have been sent for the first time, and the end frame is one more. -/
def reached (data : List UInt8) : Sending → Nat
  | .opening => 0
  | .block _ start length => start + length
  | .closing _ => segmentCount data + 1

def Within (data : List UInt8) : Sending → Prop
  | .block _ start length => 0 < length ∧ length ≤ 127 ∧ start + length ≤ segmentCount data
  | _ => True

end Sending

/-- The most segments that an acknowledgement can have sent again. -/
def longestBlock (data : List UInt8) : Nat := min 127 (segmentCount data)

/-- How many acknowledgements fall short in a block download. -/
def shortfalls (config : Config) (node : UInt8) (target : Address) (data : List UInt8)
    (heard : List Message) : Nat :=
  (blockSender config node target data).tally fallsShort .opening heard

section
variable {config : Config} {node : UInt8} {target : Address} {data : List UInt8}
  {due : List Message} {s s' : Sending} {m : Message}

/-- How a block download goes on: with so many frames, the last of which is the one to be sent
again. Where `gone` were sent for the first time before, up to `spare` of them are sent once
more. -/
structure Sending.Onward (config : Config) (node : UInt8) (target : Address) (data : List UInt8)
    (gone spare : Nat) (due : List Message) (s' : Sending) : Prop where
  within : s'.Within data
  begun : s' ≠ .opening
  last : due.getLast? = some (again config node target data s')
  length : due.length + gone ≤ s'.reached data + spare

theorem length_segmentFrames (node : UInt8) (data : List UInt8) (start first last : Nat) :
    (segmentFrames node data start first last).length = last + 1 - first := by
  simp [segmentFrames]

theorem segmentFrames_getLast (node : UInt8) (data : List UInt8) (start : Nat) {j length : Nat}
    (h : j < length) :
    (segmentFrames node data start (j + 1) length).getLast?
      = some (Sending.segmentFrame node data start length) := by
  rw [segmentFrames_behind node data start h, List.getLast?_concat]

theorem onward_of_goOnWith {checked : Bool} {start : Nat} {size : UInt8}
    (hstart : start ≤ segmentCount data)
    (h : goOnWith node data checked start size = .goes due s') :
    s'.Onward config node target data start 0 due := by
  rw [goOnWith] at h
  split at h
  · rename_i hsize
    rw [goOn] at h
    split at h
    · have hlength : 0 < min size.toNat (segmentCount data - start) ∧
          min size.toNat (segmentCount data - start) ≤ 127 ∧
          start + min size.toNat (segmentCount data - start) ≤ segmentCount data := by
        omega
      cases h
      refine ⟨hlength, by simp, segmentFrames_getLast node data start hlength.1, ?_⟩
      rw [length_segmentFrames, reached]
      omega
    · cases h
      refine ⟨trivial, by simp, rfl, ?_⟩
      show 1 + start ≤ segmentCount data + 1
      omega
  · cases h

theorem onward_of_hear (hs : s.Within data)
    (h : (blockSender config node target data).hear s m = .goes due s') :
    s'.Onward config node target data (s.reached data)
      (longestBlock data * (s.fallsShort m).toNat) due := by
  obtain ⟨r, hr, hmove⟩ := reading_eq_goes h
  unfold respond at hmove
  split at hmove
  · exact onward_of_goOnWith (Nat.zero_le _) hmove
  · rename_i checked start length seqno size
    obtain ⟨hpos, hle, hfits⟩ := hs
    split at hmove
    · cases hmove
    · split at hmove
      · rename_i hall
        have hshort : (block checked start length).fallsShort m = false := by
          simp [fallsShort, hr, hall]
        rw [hshort]
        exact onward_of_goOnWith hfits hmove
      · cases hmove
        have hpart : seqno.toNat < length := by omega
        have hshort : (block checked start length).fallsShort m = true := by
          simp [fallsShort, hr, hpart]
        refine ⟨⟨hpos, hle, hfits⟩, by simp, segmentFrames_getLast node data start hpart, ?_⟩
        rw [hshort, length_segmentFrames, longestBlock]
        simp only [Bool.toNat_true, reached]
        omega
  · cases hmove
  · cases hmove

theorem again_head (node : NodeId) (hs : s.Within data) :
    (again config node.value target data s).data.get 0 ≠ 0x80 := by
  cases s with
  | opening =>
    show (if config.useCrc then 0xC6 else 0xC2 : UInt8) ≠ 0x80
    cases config.useCrc <;> decide
  | block checked start length => exact head_segmentFrame node data start hs.1 hs.2.1
  | closing checked =>
    rw [again, ← message_endBlockDownload]
    exact (Traffic.regular_endBlockDownload data _).message_head_ne_abort node

theorem Sending.Within.reached_le (h : s.Within data) : s.reached data ≤ segmentCount data + 1 := by
  cases s with
  | opening => exact Nat.zero_le _
  | block checked start length => exact Nat.le_succ_of_le h.2.2
  | closing checked => exact Nat.le_refl _

theorem shortfalls_append {heard asked : List Message}
    (h : (blockSender config node target data).Leads heard asked (.goes due s)) (m : Message) :
    shortfalls config node target data (heard ++ [m])
      = shortfalls config node target data heard + (s.fallsShort m).toNat :=
  Conduct.tally_snoc h m

/-- While a block download goes on, its answers have asked for the opening frame, each segment so
far once, and no more than a block for each answer that fell short. -/
theorem asked_of_goes {heard asked : List Message} {move : Move Sending}
    (h : (blockSender config node target data).Leads heard asked move)
    (hmove : move = .goes due s) :
    s.Within data ∧ asked.length ≤
      s.reached data + 1 + longestBlock data * shortfalls config node target data heard := by
  induction h generalizing due s with
  | start =>
    cases hmove
    exact ⟨trivial, Nat.le_add_right _ _⟩
  | hear m hleads ih =>
    obtain ⟨hwithin, hasked⟩ := ih rfl
    have honward := onward_of_hear hwithin hmove
    have hlength := honward.length
    rw [hmove, Move.due, shortfalls_append hleads, Nat.mul_add, List.length_append]
    exact ⟨honward.within, by omega⟩

theorem due_of_hear (h : ∀ due s', (blockSender config node target data).hear s m ≠ .goes due s') :
    ((blockSender config node target data).hear s m).due = [] := by
  generalize hmove : (blockSender config node target data).hear s m = move at h
  cases move with
  | goes due s' => exact absurd rfl (h due s')
  | ends due v =>
    obtain ⟨r, -, hr⟩ := reading_eq_ends hmove
    unfold respond goOnWith goOn at hr
    grind [Move.due]
  | fails e => rfl

theorem asked_length_le {heard asked : List Message} {move : Move Sending}
    (h : (blockSender config node target data).Leads heard asked move) :
    asked.length ≤
      segmentCount data + 2 + longestBlock data * shortfalls config node target data heard := by
  cases h with
  | start => exact Nat.le_trans (Nat.le_add_left 1 _) (Nat.le_add_right _ _)
  | @hear heard asked due s m hleads =>
    by_cases hgoes : ∃ due' s', (blockSender config node target data).hear s m = .goes due' s'
    · obtain ⟨due', s', hmove⟩ := hgoes
      obtain ⟨hwithin, hasked⟩ := asked_of_goes (hleads.hear m) hmove
      have hreached := hwithin.reached_le
      omega
    · obtain ⟨hwithin, hasked⟩ := asked_of_goes hleads rfl
      have hreached := hwithin.reached_le
      rw [due_of_hear fun due' s' hmove => hgoes ⟨due', s', hmove⟩, List.append_nil,
        shortfalls_append hleads, Nat.mul_add]
      omega

end

theorem pairs_blockSender (config : Config) (node : NodeId) (target : Address)
    (data : List UInt8) : (blockSender config node.value target data).Pairs Stutters :=
  Conduct.pairs_stutters rfl
    (fun hleads hmove =>
      let honward := onward_of_hear (asked_of_goes hleads rfl).1 hmove
      ⟨honward.begun, honward.last⟩)
    fun hleads => again_head node (asked_of_goes hleads rfl).1

theorem Stutters.length_eq {α : Type} {n : Nat} {xs ys : List α} (h : Stutters n xs ys) :
    ys.length = xs.length + n := by
  induction h with
  | nil => rfl
  | next x _ ih => simp [ih]; omega
  | again _ ih => simp [ih]; omega

theorem Conduct.Account.length_le {k : Conduct S} {node : UInt8} {target : Address}
    {heard frames : List Message} {spare : Nat} {c : Course S}
    (h : k.Account Stutters node target heard frames spare c) :
    ∃ asked move, k.Leads heard asked move ∧ frames.length ≤ asked.length + spare + 1 := by
  obtain ⟨asked, move, gone, told, aborts, extra, hleads, rfl, htold, hextra, hstands⟩ := h
  refine ⟨asked, move, hleads, ?_⟩
  have hlength := htold.length_eq
  have hparts : gone.length ≤ asked.length ∧ aborts.length ≤ 1 := by
    cases hstanding : c.standing with
    | waits s =>
      rw [hstanding] at hstands
      obtain ⟨rfl, rfl, -⟩ := hstands
      simp
    | ended v =>
      rw [hstanding] at hstands
      obtain ⟨rfl, rfl, -⟩ := hstands
      simp
    | failed e =>
      rw [hstanding] at hstands
      obtain ⟨hgone, -, hnone | ⟨code, hone⟩⟩ := hstands
      · have haborts : aborts = [] := (List.append_eq_nil_iff.mp hnone).2
        exact ⟨hgone.length_le, by simp [haborts]⟩
      · have hcount := congrArg List.length hone
        rw [List.length_append, List.length_singleton] at hcount
        exact ⟨hgone.length_le, by omega⟩
  rw [List.length_append]
  omega

theorem sentFrames_of_refused {client : Client σ} {node : UInt8} {target : Address} {op : Operation}
    {w : σ} {result : Except Stop Value}
    (h : client.traced.perform node target op (w, []) = (result, w, [])) :
    sentFrames (client.observe node target op w).2 = [] := by
  rw [observe, h]
  rfl

/-- A block download sends its opening frame, each segment and its end frame once, up to a block
more for each acknowledgement that falls short, and no more than its retries and an abort
besides. -/
theorem block_download_frames_bounded (client : Client σ) (node : UInt8) (target : Address)
    (data : List UInt8) (w : σ) :
    let events := (client.observe node target (.downloadBlock data) w).2
    (sentFrames events).length ≤ segmentCount data + client.config.retries.toNat + 3
      + longestBlock data * shortfalls client.config node target data (answers node events) := by
  dsimp only
  rcases begins_perform client.traced node target (.downloadBlock data) with
    ⟨e, -, hrun⟩ | ⟨hnone, -⟩
  · rw [sentFrames_of_refused (hrun (w, []))]
    exact Nat.zero_le _
  have hlength : data.length < sizeLimit := by
    by_contra hlong
    cases hnone.symm.trans (if_neg hlong)
  cases hn : NodeId.ofByte? node with
  | none =>
    rw [sentFrames_of_refused (perform_of_invalid hn (.downloadBlock data) (w, []))]
    exact Nat.zero_le _
  | some n =>
    obtain rfl : n.value = node := NodeId.value_of_ofByte? hn
    have hobeyed := (block_download_follows_replies client n target data w hlength).obeyed
    obtain ⟨asked, move, hleads, hframes⟩ :=
      (hobeyed.account (pairs_blockSender client.config n target data)).length_le
    have hasked := asked_length_le hleads
    have hretries : (watch client.config n.value .download
        (client.observe n.value target (.downloadBlock data) w).2).repeats.length
          ≤ client.config.retries.toNat :=
      (retries_bounded client n.value target (.downloadBlock data) w).2.1
    omega

def singly : BlockSize := ⟨1, by decide, by decide⟩

/-- What a server says that takes a download of one segment, but acknowledges it only when it has
come so many times more. -/
def stalling (n : Nat) : List Response :=
  .confirmBlockDownload true ⟨0x2000, 0⟩ singly.value
    :: (List.replicate n (.confirmBlock 0 singly.value)
      ++ [.confirmBlock 1 singly.value, .confirmBlockDownloadEnd])

section
variable {c : Call (Script TransportError)} (h : c.OverScript)
  {s : Session (Script TransportError)} {replies : List (List Message)} {sent : List Message}
  {data : List UInt8}
include h

theorem Call.OverScript.ends_downloadBlockFrom_stalled {n left : Nat}
    (hs : s.world.Due c.config.timeout []
      (List.replicate n [(Response.confirmBlock 0 singly.value).message c.node]
        ++ [(Response.confirmBlock 1 singly.value).message c.node] :: replies) sent) :
    Ends (c.downloadBlockFrom data 0 1 1 (left + (n + 1))) s
      (fun size t => size = singly ∧ ∃ w d, t = { s with world := w, deadline := d } ∧
        w.Due c.config.timeout [] replies
          (sent ++ List.replicate (n + 1) (Sending.segmentFrame c.node.value data 0 1)))
      fun _ _ => False := by
  have hsegment : (List.range' 1 (1 + 1 - 1)).forM (c.sendBlockSegment data 0)
      = c.sendMessage (Sending.segmentFrame c.node.value data 0 1) := by
    rw [← message_blockSegment c.node data 0 (Nat.le_refl 1) (by decide)]
    simp [Call.sendBlockSegment, Call.sendSegment]
  have hregular : ∀ seqno, (Response.confirmBlock seqno singly.value).Regular :=
    fun _ => .of_plain trivial
  -- On the answers that acknowledge nothing: each of them brings the segment once more.
  induction n generalizing s sent with
  | zero =>
    rw [← Nat.add_assoc, Call.downloadBlockFrom, hsegment, ← bind_assoc, ends_bind]
    refine (h.ends_ask _ _ (hregular 1) hs).mono (fun r t ht => ?_) fun _ _ he => he
    obtain ⟨rfl, w, d, rfl, hw⟩ := ht
    dsimp only
    rw [if_neg (by decide), if_pos (by decide), Call.ends_checkBlockSize]
    exact ⟨rfl, w, d, rfl, hw⟩
  | succ n ih =>
    rw [← Nat.add_assoc, Call.downloadBlockFrom, hsegment, ← bind_assoc, ends_bind]
    refine (h.ends_ask _ _ (hregular 0) hs).mono (fun r t ht => ?_) fun _ _ he => he
    obtain ⟨rfl, w, d, rfl, hw⟩ := ht
    dsimp only
    rw [if_neg (by decide), if_neg (by decide), ends_bind, Call.note, ends_act]
    refine (ih (h.due_note hw _)).mono (fun size t ht => ?_) fun _ _ he => he
    obtain ⟨hsize, v, d', rfl, hv⟩ := ht
    rw [List.append_assoc, List.singleton_append, ← List.replicate_succ] at hv
    exact ⟨hsize, v, d', rfl, hv⟩

theorem Call.OverScript.ends_downloadBlock_stalled {n : Nat} (hcount : segmentCount data = 1)
    (hpatient : n < c.patience)
    (hs : s.world.Due c.config.timeout [] ((stalling n).map fun r => [r.message c.node]) sent) :
    Ends (c.downloadBlock data) s
      (fun _ t => ∃ opening close, t.world.Due c.config.timeout [] []
        (sent ++ [opening]
          ++ List.replicate (n + 1) (Sending.segmentFrame c.node.value data 0 1) ++ [close]))
      fun _ _ => False := by
  have hconfirm : (Response.confirmBlockDownload true ⟨0x2000, 0⟩ singly.value).Regular :=
    .of_plain trivial
  have hend : Response.confirmBlockDownloadEnd.Regular := .of_plain trivial
  have hlength : min singly.value.toNat (segmentCount data - 0) = 1 := by
    rw [hcount]
    decide
  obtain ⟨left, hleft⟩ : ∃ left, c.patience = left + (n + 1) := Nat.exists_eq_add_of_le' hpatient
  rw [Call.downloadBlock, ends_bind, ends_modify, ends_bind]
  refine (h.ends_exchange (s := { s with announced := some data.length }) _ hconfirm hs).mono
    (fun r t ht => ?_) fun _ _ he => he
  obtain ⟨rfl, w, d, rfl, hw⟩ := ht
  rw [List.map_append, List.map_replicate, List.map_cons, List.map_cons, List.map_nil] at hw
  dsimp only
  rw [ends_bind, Call.ends_checkBlockSize, ends_bind, Call.downloadBlocks, if_pos (by omega),
    hlength, ends_bind, Call.note, ends_act, ends_bind, hleft]
  refine (h.ends_downloadBlockFrom_stalled (h.due_note hw _)).mono (fun size t ht => ?_)
    fun _ _ he => he
  obtain ⟨rfl, v, d', rfl, hv⟩ := ht
  rw [ends_bind, ends_modify, Call.ends_downloadBlocks_behind (by omega), ends_bind]
  refine (h.ends_exchange _ hend hv).mono (fun r t ht => ?_) fun _ _ he => he
  obtain ⟨rfl, x, d'', rfl, hx⟩ := ht
  have htransferred : min ((0 + 1) * segmentSize) data.length = data.length := by
    rw [Nat.zero_add, ← hcount, min_segmentCount]
  dsimp only
  rw [htransferred, Call.ends_checkSize (.inr (.inr rfl))]
  exact ⟨_, _, hx⟩

end

/-- However often the server may acknowledge nothing of its only segment, a client sends that again
each time, and the download succeeds in the end. -/
theorem stalled_download_returns {config : Config} (valid : config.Valid)
    (interval : 0 < config.pollInterval) (node : NodeId) (target : Address) {data : List UInt8}
    (hcount : segmentCount data = 1) (hlength : data.length < sizeLimit) (n : Nat) :
    let w : Script TransportError :=
      { replies := (stalling n).map fun r => .ok [.event (.frame (r.message node)) 0 1] }
    ∀ patience, config.timeout + n < patience →
      let o := (Script.client config valid patience).downloadBlock node.value target data w
      o.1 = .ok () ∧ o.2.sent.size = n + 3 := by
  intro w patience hpatience
  let c := (Script.client config valid patience).call node target .download
  have h : c.OverScript := ⟨rfl, interval, show config.timeout < patience by omega⟩
  have htimeout : 0 < c.config.timeout := Config.timeout_of_valid valid
  have hdue : (c.session .block (c.link.resume w)).world.Due c.config.timeout []
      ((stalling n).map fun r => [r.message node]) [] := by
    refine ⟨rfl, rfl, .singleton _, ?_, rfl⟩
    refine List.forall₂_map_left_iff.mpr (List.forall₂_map_right_iff.mpr (List.forall₂_same.mpr ?_))
    rintro r -
    have hbrisk : Script.Brisk c.config.timeout [0, 0] := .cons_cons (by omega) (.singleton 0)
    exact ⟨[(0, r.message node)], rfl, rfl, hbrisk⟩
  have hends : Ends (c.prepare .block >>= fun _ => c.downloadBlock data)
      (c.session .block (c.link.resume w))
      (fun _ t => t.world.sent.size = n + 3) fun _ _ => False := by
    rw [ends_bind]
    refine (h.ends_prepare .block hdue).mono (fun _ t ht => ?_) fun _ _ he => he
    obtain ⟨v, rfl, hv⟩ := ht
    have hv : v.Due c.config.timeout [] ((stalling n).map fun r => [r.message c.node]) [] := hv
    let u := { c.session .block (c.link.resume w) with world := v }
    refine (h.ends_downloadBlock_stalled (s := u) hcount (show n < patience by omega) hv).mono
      (fun _ t ht => ?_) fun _ _ he => he
    obtain ⟨opening, close, ht⟩ := ht
    have hsent := congrArg List.length ht.sent
    simpa using hsent
  obtain ⟨v, t, text, ht, hrun⟩ := Call.run_returns hends
  intro o
  have ho : o = (.ok (), c.link.note ⟨.debug, text⟩ t.world) := by
    rw [← hrun]
    exact (if_pos hlength).trans (transfer_node ..)
  rw [ho]
  exact ⟨rfl, ht⟩

/-- So there is no bound on the frames that a block download sends, whatever the server says, in
terms of the length of the data and the retries. -/
theorem block_download_frames_unbounded :
    ¬ ∃ bound : Nat → UInt32 → Nat,
      ∀ (client : Client (Script TransportError)) (node : UInt8) (target : Address)
        (data : List UInt8) (s : Script TransportError), client.link = Script.link →
        data.length < sizeLimit →
        (client.downloadBlock node target data s).2.sent.size
          ≤ s.sent.size + bound data.length client.config.retries := by
  rintro ⟨bound, hbound⟩
  let config : Config := {}
  have valid : config.Valid := by decide
  let n := bound 1 config.retries
  obtain ⟨patience, hpatience⟩ : ∃ patience, config.timeout + n < patience :=
    ⟨_, Nat.lt_succ_self _⟩
  let client := Script.client config valid patience
  let five : NodeId := ⟨5, by decide, by decide⟩
  let w : Script TransportError :=
    { replies := (stalling n).map fun r => .ok [.event (.frame (r.message five)) 0 1] }
  have hmany : (client.downloadBlock 5 ⟨0x2000, 0⟩ [0] w).2.sent.size = n + 3 :=
    (stalled_download_returns valid (by decide) five ⟨0x2000, 0⟩ (by decide) (by decide) n patience
      hpatience).2
  have hfew : (client.downloadBlock 5 ⟨0x2000, 0⟩ [0] w).2.sent.size ≤ 0 + n :=
    hbound client 5 ⟨0x2000, 0⟩ [0] w rfl (by decide)
  omega

end Canopen.Client
