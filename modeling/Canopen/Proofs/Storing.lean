import Canopen.Proofs.Commitments
import Canopen.Proofs.Histories
import Canopen.Proofs.Service

/-!
What a server stores. It remembers of a download just what messages and answers tell of it, so its
objects change only when these complete one, to what has been collected.
-/

set_option autoImplicit false

namespace Canopen.Server

open Can (Message)
open Sdo

/-- What the server itself remembers of a download. -/
def State.download? : State → Option Download
  | .downloadSegmented target toggle _ size buffer =>
    some { target, size, taken := buffer, phase := .segments toggle }
  | .downloadBlock t =>
    some { target := t.target, size := t.size, taken := t.buffer,
           phase := .blocks t.crc t.seqno.toNat }
  | .endDownloadBlock t =>
    some { target := t.target, size := t.size, taken := t.buffer, phase := .ending t.crc }
  | _ => none

theorem State.rests_of_idle {state : State} (h : state = .idle) : state.download? = none := by
  rw [h]
  rfl

/-- What the server remembers is what has happened. -/
def Recalls (s : Server) (past : List Exchange) : Prop :=
  ∀ d, s.state.download? = some d → UnderWay s.node past d

/-- The exchange stores what has been collected, or the objects stay. Either way the server knows
of the download that is then under way. -/
inductive Accounts (node : NodeId) (past : List Exchange) (x : Exchange) (objects : Dictionary) :
    State → Dictionary → Prop
  | stored {state : State} {target : Address} {object : List UInt8}
    (h : Stores node past x target object) (rests : state.download? = none) :
    Accounts node past x objects state (objects.set target object)
  | kept {state : State} (h : ¬x.Completes node)
    (recalls : ∀ d, state.download? = some d → UnderWay node (past ++ [x]) d) :
    Accounts node past x objects state objects

theorem Accounts.recalls {node : NodeId} {past : List Exchange} {x : Exchange}
    {objects objects' : Dictionary} {state : State}
    (h : Accounts node past x objects state objects') (d : Download)
    (hd : state.download? = some d) : UnderWay node (past ++ [x]) d := by
  cases h with
  | stored _ rests => cases rests.symm.trans hd
  | kept _ recalls => exact recalls d hd

theorem Accounts.outcome {node : NodeId} {past : List Exchange} {x : Exchange}
    {objects objects' : Dictionary} {state : State}
    (h : Accounts node past x objects state objects') :
    (∃ target object, Stores node past x target object ∧
        ∀ a, objects'.get? a = if a = target then some object else objects.get? a) ∨
      objects' = objects ∧ ¬x.Completes node := by
  cases h with
  | @stored target object h _ =>
    refine .inl ⟨target, object, h, fun a => ?_⟩
    split
    · rename_i ha
      rw [ha, Dictionary.get?_set_self]
    · rename_i ha
      rw [Dictionary.get?_set_of_ne objects ha]
  | kept h _ => exact .inr ⟨rfl, h⟩

abbrev Answer.Accounted (r : Answer) (past : List Exchange) (m : Message) (s : Server) : Prop :=
  Accounts s.node past { faults := s.faults, message := m, answers := r.frames } s.objects
    r.device.state r.device.objects

structure Answer.Aside (r : Answer) (s : Server) : Prop where
  objects : r.device.objects = s.objects
  rests : r.device.state.download? = none

section
variable {s : Server} {m : Message} {past : List Exchange}

abbrev arrival (s : Server) (m : Message) : Arrival := { faults := s.faults, message := m }

theorem silent_accounted {r : Answer} (hs : s.Recalls past) (hframes : r.frames = [])
    (hstate : r.device.state = s.state) (hobjects : r.device.objects = s.objects)
    (hno : ∀ d, s.state.download? = some d → ¬(s.arrival m).Matters s.node d.phase) :
    r.Accounted past m s := by
  unfold Answer.Accounted
  rw [hstate, hobjects, hframes]
  refine .kept (Exchange.not_completes_of_silent rfl) fun d hd => ?_
  have hgoes := (hs d hd).extend (x := ⟨s.arrival m, []⟩) (.silence rfl (hno d hd))
  rwa [List.append_nil] at hgoes

theorem refuse_accounted (target : Address) (code : AbortCode) :
    (s.refuse target code).Accounted past m s := by
  refine .kept (Exchange.not_completes_of_answers (r := .abortWith target code) rfl trivial trivial
    fun ask h => by cases h) fun d hd => by cases hd

theorem Answer.Aside.accounted {r : Answer} (h : r.Aside s) {ask : Request}
    (asks : (s.arrival m).Asks s.node ask) (hno : ∀ r, ¬Concludes ask r) :
    r.Accounted past m s := by
  unfold Answer.Accounted
  rw [h.objects]
  refine .kept (Exchange.not_completes_of_asks asks hno) fun d hd => ?_
  cases h.rests.symm.trans hd

theorem initiateDownload_accounted (hidle : s.state = .idle) {unused : UInt8}
    {expedited sized : Bool} {target : Address} {data : Vector UInt8 4}
    (asks : (s.arrival m).Asks s.node (.initiateDownload unused expedited sized target data)) :
    (s.initiateDownload unused expedited sized target data).Accounted past m s := by
  unfold initiateDownload
  split
  · rename_i hexpedited
    subst hexpedited
    refine .stored (.expedited asks rfl rfl ?_) ?_
    · rw [List.length_take, Vector.length_toList]
      split
      · exact Nat.min_eq_left (Nat.sub_le _ _)
      · rfl
    · exact State.rests_of_idle hidle
  · rename_i hexpedited
    rw [Bool.not_eq_true] at hexpedited
    subst hexpedited
    refine .kept (Exchange.not_completes_of_asks asks fun r h => by cases h) fun d hd => ?_
    cases hd
    exact .opened (.segments asks rfl)

theorem initiateBlockDownload_accounted {crc sized : Bool} {target : Address} {size : UInt32}
    (asks : (s.arrival m).Asks s.node (.initiateBlockDownload crc sized target size)) :
    (s.initiateBlockDownload crc sized target size).Accounted past m s := by
  refine .kept (Exchange.not_completes_of_asks asks fun r h => by cases h) fun d hd => ?_
  cases hd
  exact .opened (.blocks asks rfl)

theorem downloadSegment_accounted (hidle : s.state = .idle) {target : Address} {expected : Bool}
    {segment : Nat} {size : Option Nat} {buffer : List UInt8} {toggle : Bool} {unused : UInt8}
    {last : Bool} {data : Vector UInt8 7}
    (underWay : UnderWay s.node past
      { target, size, taken := buffer, phase := .segments expected })
    (asks : (s.arrival m).Asks s.node (.downloadSegment toggle unused last data)) :
    (s.downloadSegment target expected segment size buffer toggle unused last data).Accounted
      past m s := by
  unfold downloadSegment
  split
  · rename_i htoggle
    subst htoggle
    dsimp only
    cases last with
    | true =>
      rw [if_pos rfl]
      split
      · rename_i hsize
        refine .stored (.segments underWay asks rfl rfl fun n hn => ?_) ?_
        · rw [hn] at hsize
          exact (of_decide_eq_true hsize).symm
        · exact State.rests_of_idle hidle
      · exact refuse_accounted target .dataTypeMismatch
    | false =>
      rw [if_neg Bool.false_ne_true]
      refine .kept (Exchange.not_completes_of_asks asks fun r h => by cases h) fun d hd => ?_
      cases hd
      exact underWay.extend (.segment asks rfl)
  · exact refuse_accounted target .toggleNotAlternated

theorem endBlockDownload_accounted (hidle : s.state = .idle) {t : BlockDownload} {unused : UInt8}
    {checksum : UInt16}
    (underWay : UnderWay s.node past
      { target := t.target, size := t.size, taken := t.buffer, phase := .ending t.crc })
    (asks : (s.arrival m).Asks s.node (.endBlockDownload unused checksum)) :
    (s.endBlockDownload t unused checksum).Accounted past m s := by
  unfold endBlockDownload
  dsimp only
  split
  · exact refuse_accounted t.target .crcError
  · rename_i hcrc
    split
    · rename_i hsize
      refine .stored (.blocks underWay asks rfl rfl (fun n hn => ?_) fun hused => ?_) ?_
      · rw [hn] at hsize
        exact (of_decide_eq_true hsize).symm
      · rw [hused, Bool.true_and, bne_iff_ne] at hcrc
        exact Decidable.not_not.mp hcrc
      · exact State.rests_of_idle hidle
    · exact refuse_accounted t.target .dataTypeMismatch

theorem adds_accept {x : Exchange} {t : BlockDownload} {segment : BlockSegment} {n : Nat}
    (brings : x.Brings s.node segment)
    (goes : ¬(segment.seqno.toNat = t.seqno.toNat + 1 ∧ segment.last = true))
    (counts : x.Counts s.node (t.accept segment).seqno.toNat n) :
    ∃ bytes, (t.accept segment).buffer = t.buffer ++ bytes ∧
      x.Adds s.node (.blocks t.crc t.seqno.toNat) bytes (.blocks t.crc n) := by
  unfold BlockDownload.accept at counts ⊢
  split
  · rename_i hnext
    have hlast : segment.last = false := Bool.eq_false_iff.mpr fun h => goes ⟨hnext, h⟩
    rw [if_pos hnext, hnext] at counts
    exact ⟨_, rfl, .inOrder brings hnext hlast counts⟩
  · rename_i hother
    rw [if_neg hother] at counts
    exact ⟨[], (List.append_nil _).symm, .outOfOrder brings hother counts⟩

theorem adds_last {x : Exchange} {t : BlockDownload} {segment : BlockSegment} {blockSize : UInt8}
    (brings : x.Brings s.node segment)
    (ends : segment.seqno.toNat = t.seqno.toNat + 1 ∧ segment.last = true)
    (answers : x.Answers s.node (.confirmBlock (t.accept segment).seqno blockSize)) :
    ∃ bytes, (t.accept segment).buffer = t.buffer ++ bytes ∧
      x.Adds s.node (.blocks t.crc t.seqno.toNat) bytes (.ending t.crc) := by
  unfold BlockDownload.accept at answers ⊢
  rw [if_pos ends.1] at answers ⊢
  exact ⟨_, rfl, .last brings ends.1 ends.2 answers⟩

theorem counts_confirmed {x : Exchange} {t : BlockDownload} {blockSize : UInt8}
    (answers : x.Answers s.node (.confirmBlock t.seqno blockSize)) :
    x.Counts s.node t.seqno.toNat (if t.seqno = blockSize then 0 else t.seqno.toNat) := by
  split
  · rename_i hfull
    subst hfull
    exact .full answers rfl
  · rename_i hpart
    exact .part answers rfl hpart

theorem download?_confirmed (t : BlockDownload) (blockSize : UInt8) :
    (State.downloadBlock (if t.seqno = blockSize then { t with seqno := 0 } else t)).download? =
      some { target := t.target, size := t.size, taken := t.buffer
             phase := .blocks t.crc (if t.seqno = blockSize then 0 else t.seqno.toNat) } := by
  split <;> rfl

theorem blockSegment_kept {t : BlockDownload} {segment : BlockSegment}
    (h : s.faults.loseDownloadSegment ≠ some segment.seqno) :
    s.blockSegment t segment =
      if segment.seqno ≠ s.blockSize ∧ segment.last = false then
        { s with state := .downloadBlock (t.accept segment) }.quiet
      else
        { s with
          state :=
            if segment.seqno.toNat = t.seqno.toNat + 1 ∧ segment.last = true then
              .endDownloadBlock (t.accept segment)
            else .downloadBlock (if (t.accept segment).seqno = s.blockSize then
              { t.accept segment with seqno := 0 } else t.accept segment) }.answer
          (.confirmBlock (t.accept segment).seqno s.blockSize) := by
  simp only [blockSegment, if_neg h, BlockDownload.accept, decide_eq_true_eq, Bool.and_eq_true]
  split
  · rfl
  · split <;> rfl

theorem blockSegment_accounted {t : BlockDownload} (hs : s.state = .downloadBlock t)
    (recalls : s.Recalls past) (heard : (s.arrival m).Heard s.node)
    (hhead : m.data.get 0 ≠ 0x80) {segment : BlockSegment}
    (hread : BlockSegment.ofMessage m = .ok segment) :
    (s.blockSegment t segment).Accounted past m s := by
  have underWay : UnderWay s.node past
      { target := t.target, size := t.size, taken := t.buffer
        phase := .blocks t.crc t.seqno.toNat } := recalls _ (by rw [hs]; rfl)
  by_cases hlost : s.faults.loseDownloadSegment = some segment.seqno
  · -- A segment that gets lost is silence to the download.
    rw [blockSegment, if_pos hlost]
    refine silent_accounted recalls rfl rfl rfl fun d hd => ?_
    rw [hs] at hd
    cases hd
    rintro (⟨-, habort⟩ | ⟨segment', -, -, hread', hkept⟩)
    · exact hhead habort
    · cases Except.ok.inj (hread.symm.trans hread')
      exact hkept hlost
  · have brings : (s.arrival m).Brings s.node segment := ⟨heard, hhead, hread, hlost⟩
    have hsame : (t.accept segment).target = t.target ∧ (t.accept segment).size = t.size ∧
        (t.accept segment).crc = t.crc := by
      unfold BlockDownload.accept
      split <;> exact ⟨rfl, rfl, rfl⟩
    obtain ⟨htarget, hsize, hcrc⟩ := hsame
    rw [blockSegment_kept hlost]
    split
    · rename_i hwithin
      refine .kept (Exchange.not_completes_of_silent rfl) fun d hd => ?_
      obtain rfl := Option.some.inj hd
      have hgoes : ¬(segment.seqno.toNat = t.seqno.toNat + 1 ∧ segment.last = true) := by
        rw [hwithin.2]
        exact fun h => Bool.false_ne_true h.2
      obtain ⟨bytes, hbuffer, adds⟩ :=
        adds_accept (x := ⟨s.arrival m, []⟩) brings hgoes (.unanswered rfl)
      rw [htarget, hsize, hcrc, hbuffer]
      exact underWay.extend adds
    · have answers : Exchange.Answers s.node ⟨s.arrival m,
          [(Response.confirmBlock (t.accept segment).seqno s.blockSize).message s.node]⟩
          (.confirmBlock (t.accept segment).seqno s.blockSize) := rfl
      refine .kept (Exchange.not_completes_of_answers answers trivial trivial
        fun ask h => by cases h) fun d hd => ?_
      dsimp only [answer] at hd
      split at hd
      · rename_i hend
        obtain rfl := Option.some.inj hd
        obtain ⟨bytes, hbuffer, adds⟩ := adds_last brings hend answers
        rw [htarget, hsize, hcrc, hbuffer]
        exact underWay.extend adds
      · rename_i hgoes
        rw [download?_confirmed] at hd
        obtain rfl := Option.some.inj hd
        obtain ⟨bytes, hbuffer, adds⟩ := adds_accept brings hgoes (counts_confirmed answers)
        rw [htarget, hsize, hcrc, hbuffer]
        exact underWay.extend adds

/-! ### Uploads are no concern of the objects -/

theorem startUpload_aside (hidle : s.state = .idle) (target : Address) (data : List UInt8) :
    (s.startUpload target data).Aside s := by
  unfold startUpload
  split
  · exact ⟨rfl, State.rests_of_idle hidle⟩
  · exact ⟨rfl, rfl⟩

theorem refuse_aside (target : Address) (code : AbortCode) : (s.refuse target code).Aside s :=
  ⟨rfl, rfl⟩

theorem initiateUpload_aside (hidle : s.state = .idle) (target : Address) :
    (s.initiateUpload target).Aside s := by
  unfold initiateUpload
  split
  · exact startUpload_aside hidle _ _
  · exact refuse_aside _ _

theorem uploadSegment_aside (hidle : s.state = .idle) (target : Address) (expected : Bool)
    (segment : Nat) (data : List UInt8) (toggle : Bool) :
    (s.uploadSegment target expected segment data toggle).Aside s := by
  unfold uploadSegment
  split
  · dsimp only
    split
    · exact ⟨rfl, State.rests_of_idle hidle⟩
    · exact ⟨rfl, rfl⟩
  · exact refuse_aside _ _

theorem initiateBlockUpload_aside (hidle : s.state = .idle) (crc : Bool) (target : Address)
    (blockSize threshold : UInt8) :
    (s.initiateBlockUpload crc target blockSize threshold).Aside s := by
  unfold initiateBlockUpload
  split
  · exact refuse_aside _ _
  · split
    · exact startUpload_aside hidle _ _
    · split
      · exact refuse_aside _ _
      · exact ⟨rfl, rfl⟩

theorem quiet_aside (hidle : s.state = .idle) : s.quiet.Aside s :=
  ⟨rfl, State.rests_of_idle hidle⟩

theorem sendBlock_aside (t : BlockUpload) (first : Nat) : (s.sendBlock t first).Aside s :=
  ⟨rfl, rfl⟩

theorem confirmBlock_aside (t : BlockUpload) (seqno blockSize : UInt8) :
    (s.confirmBlock t seqno blockSize).Aside s := by
  unfold confirmBlock
  split
  · exact refuse_aside _ _
  · split
    · exact sendBlock_aside _ _
    · split
      · exact refuse_aside _ _
      · dsimp only
        split
        · exact sendBlock_aside _ _
        · exact ⟨rfl, rfl⟩

/-! ### Any step, and any run -/

theorem proceed_accounted (recalls : s.Recalls past) {r : Request}
    (asks : (s.arrival m).Asks s.node r) : (s.proceed r).Accounted past m s := by
  have hidle : ({ s with state := .idle } : Server).state = .idle := rfl
  unfold proceed
  dsimp only
  split
  · exact initiateDownload_accounted hidle asks
  · exact (initiateUpload_aside hidle _).accounted asks fun _ h => by cases h
  · exact initiateBlockDownload_accounted asks
  · exact (initiateBlockUpload_aside hidle _ _ _ _).accounted asks fun _ h => by cases h
  · rename_i hs
    exact downloadSegment_accounted hidle (recalls _ (by rw [hs]; rfl)) asks
  · exact (uploadSegment_aside hidle _ _ _ _ _).accounted asks fun _ h => by cases h
  · rename_i hs
    exact endBlockDownload_accounted hidle (recalls _ (by rw [hs]; rfl)) asks
  · exact (sendBlock_aside _ _).accounted asks fun _ h => by cases h
  · exact (sendBlock_aside _ _).accounted asks fun _ h => by cases h
  · exact (confirmBlock_aside _ _ _).accounted asks fun _ h => by cases h
  · exact (quiet_aside hidle).accounted asks fun _ h => by cases h
  · exact refuse_accounted ⟨0, 0⟩ .invalidCommandSpecifier

theorem request_accounted (recalls : s.Recalls past) {r : Request}
    (asks : (s.arrival m).Asks s.node r) : (s.request r).Accounted past m s := by
  cases r with
  | abort target code => exact .kept (Exchange.not_completes_of_silent rfl) fun _ h => by cases h
  | _ =>
    simp only [request]
    split
    · exact refuse_accounted _ _
    · exact proceed_accounted recalls asks

theorem readRequest_accounted (recalls : s.Recalls past) (heard : (s.arrival m).Heard s.node)
    (hhead : ∀ t, s.state = .downloadBlock t → m.data.get 0 = 0x80) :
    (s.readRequest m).Accounted past m s := by
  unfold readRequest
  split
  · rename_i r hread
    exact request_accounted recalls ⟨heard, hread⟩
  · rename_i e hread
    have haborts : ¬(s.arrival m).Aborts s.node := by
      rintro ⟨target, code, -, hread'⟩
      cases hread.symm.trans hread'
    refine silent_accounted recalls rfl rfl rfl fun d hd => ?_
    cases hs : s.state with
    | downloadBlock t =>
      -- With the head of an abort it is no segment either.
      rw [hs] at hd
      cases hd
      rintro (⟨habort, -⟩ | ⟨segment, -, hhead', -⟩)
      · exact haborts habort
      · exact hhead' (hhead t hs)
    | downloadSegmented target expected segment size buffer =>
      rw [hs] at hd
      cases hd
      exact haborts
    | endDownloadBlock t =>
      rw [hs] at hd
      cases hd
      exact haborts
    | _ =>
      rw [hs] at hd
      cases hd

theorem read_accounted (recalls : s.Recalls past) (heard : (s.arrival m).Heard s.node) :
    (s.read m).Accounted past m s := by
  unfold read
  split
  · rename_i t hs
    split
    · rename_i hhead
      exact readRequest_accounted recalls heard fun _ _ => hhead
    · rename_i hhead
      unfold readSegment
      split
      · rename_i segment hread
        exact blockSegment_accounted hs recalls heard hhead hread
      · rename_i e hread
        refine silent_accounted recalls rfl rfl rfl fun d hd => ?_
        rw [hs] at hd
        cases hd
        rintro (⟨-, habort⟩ | ⟨segment, -, -, hread', -⟩)
        · exact hhead habort
        · cases hread.symm.trans hread'
  · rename_i hs
    exact readRequest_accounted recalls heard fun t ht => absurd ht (hs t)

theorem Arrival.Matters.heard {node : NodeId} {a : Arrival} {phase : Phase}
    (h : a.Matters node phase) : a.Heard node := by
  cases phase with
  | blocks =>
    obtain ⟨⟨_, _, heard, -⟩, -⟩ | ⟨_, heard, -⟩ := h
    · exact heard
    · exact heard
  | segments =>
    obtain ⟨_, _, heard, -⟩ := h
    exact heard
  | ending =>
    obtain ⟨_, _, heard, -⟩ := h
    exact heard

theorem handle_accounted (recalls : s.Recalls past) : (s.handle m).Accounted past m s := by
  by_cases hm : m.id = s.node.requestId
  · by_cases hdeaf : s.Deaf
    · obtain ⟨faults, heq⟩ := handle_deaf hdeaf hm
      rw [heq]
      refine silent_accounted recalls rfl rfl rfl fun d _ hmatters => ?_
      obtain ⟨-, hsilent, hignores⟩ := hmatters.heard
      rcases hdeaf with h | h
      · cases h.symm.trans hsilent
      · exact absurd hignores (Nat.ne_of_gt h)
    · have heard : (s.arrival m).Heard s.node := by
        obtain ⟨hsilent, hignores⟩ := not_or.mp hdeaf
        exact ⟨hm, Bool.eq_false_iff.mpr hsilent, Nat.eq_zero_of_not_pos hignores⟩
      rw [handle_heard hdeaf hm]
      exact read_accounted (s := { s with received := s.received + 1 }) recalls heard
  · rw [handle_of_ne s hm]
    exact silent_accounted recalls rfl rfl rfl fun d _ hmatters => hm hmatters.heard.1

end

/-- One event: what the server remembers is still what has happened. -/
theorem meet_recalls {s : Server} {past : List Exchange} (recalls : s.Recalls past) (e : Event) :
    (s.meet e).Recalls (past ++ s.exchanges e) := by
  cases e with
  | message m =>
    have hnode : (s.handle m).device.node = s.node := (handle_from s m).1
    intro d hd
    rw [meet, hnode]
    exact (handle_accounted recalls).recalls d hd
  | settings blockSize crc faults =>
    rw [exchanges, List.append_nil]
    exact recalls

/-- All events, by induction on them. What happened before them grows from one to the next. -/
theorem after_recalls (events : List Event) : ∀ {s : Server} {past : List Exchange},
    s.Recalls past → (s.after events).Recalls (past ++ s.past events) := by
  induction events with
  | nil =>
    intro s past recalls
    rw [Server.past, List.append_nil]
    exact recalls
  | cons e rest ih =>
    intro s past recalls
    rw [Server.past, ← List.append_assoc]
    exact ih (meet_recalls recalls e)

theorem after_node (events : List Event) : ∀ s : Server, (s.after events).node = s.node := by
  induction events with
  | nil => exact fun _ => rfl
  | cons e rest ih =>
    intro s
    refine (ih (s.meet e)).trans ?_
    cases e with
    | message m => exact (handle_from s m).1
    | settings => rfl

/-- Whatever is sent to a server, and whatever it is set to in between: what messages and answers
tell to be stored is stored, at the address that the download was started for, and with any other
message all objects stay as they are. Nothing is stored with an abort or in silence. -/
theorem objects_change_only_by_downloads (s : Server) (hidle : s.state = .idle)
    (events : List Event) (m : Message) :
    let before := s.after events
    let x := before.exchange m
    let objects := (before.handle m).device.objects
    (∀ target object, Stores s.node (s.past events) x target object →
        ∀ a, objects.get? a = if a = target then some object else before.objects.get? a) ∧
      ((∃ target object, Stores s.node (s.past events) x target object) ∨
        objects = before.objects ∧ ¬x.Completes s.node) ∧
      (x.answers = [] ∨ (∃ target code, (Response.abort target code).message s.node ∈ x.answers) ∨
          (∃ target code, Request.ofMessage m = .ok (.abort target code)) →
        objects = before.objects) := by
  intro before x objects
  have hstart : s.Recalls [] := by
    intro d hd
    rw [hidle] at hd
    cases hd
  have recalls : before.Recalls (s.past events) := after_recalls events hstart
  have hnode : before.node = s.node := after_node events s
  have houtcome := (handle_accounted (m := m) recalls).outcome
  rw [hnode] at houtcome
  refine ⟨fun target object hstores => ?_, ?_, fun h => ?_⟩
  · obtain ⟨target', object', hstores', hobjects⟩ | ⟨-, hno⟩ := houtcome
    · obtain ⟨rfl, rfl⟩ := hstores.unique hstores'
      exact hobjects
    · exact absurd hstores.completes hno
  · obtain ⟨target, object, hstores, -⟩ | hkept := houtcome
    · exact .inl ⟨target, object, hstores⟩
    · exact .inr hkept
  · obtain ⟨target, object, hstores, -⟩ | ⟨hsame, -⟩ := houtcome
    · obtain ⟨hspeaks, hgoes, hasks⟩ := hstores.completes.speaks
      obtain hsilent | ⟨target, code, hmem⟩ | ⟨target, code, hread⟩ := h
      · exact absurd hsilent hspeaks
      · exact absurd hmem (hgoes target code)
      · exact absurd hread (hasks target code)
    · exact hsame

/-- A node to which three bytes are sent in a block, and then new settings. -/
theorem objects_change_only_by_downloads_of_three_bytes :
    let node : NodeId := ⟨5, by decide, by decide⟩
    let s : Server := { node }
    let target : Address := ⟨0x2000, 1⟩
    let events : List Event :=
      [.message ((Request.initiateBlockDownload true true target 3).message node),
        .message ((BlockSegment.mk true 1 (padTo 7 [1, 2, 3])).message .client node),
        .settings 4 false {}]
    let m := (Request.endBlockDownload 4 (Canopen.crc [1, 2, 3])).message node
    s.state = .idle ∧
      Stores node (s.past events) ((s.after events).exchange m) target [1, 2, 3] := by
  intro node s target events m
  have hafter : ((s.after events).handle m).device.objects.get? target = some [1, 2, 3] := by
    decide +kernel
  have hbefore : (s.after events).objects.get? target = none := by
    decide +kernel
  refine ⟨rfl, ?_⟩
  obtain ⟨hstored, ⟨target', object, hstores⟩ | ⟨hsame, -⟩, -⟩ :=
    objects_change_only_by_downloads s rfl events m
  · have hat := hstored target' object hstores target
    rw [hafter, hbefore] at hat
    split at hat
    · rename_i htarget
      cases hat
      rw [htarget]
      exact hstores
    · cases hat
  · rw [hsame, hbefore] at hafter
    cases hafter

end Canopen.Server
