import Canopen.Proofs.Answers
import Canopen.Proofs.Fetching

set_option autoImplicit false

namespace Canopen.Client

open Can (Message TransportError)
open Sdo
open Transfer Fetching

variable {σ : Type}

namespace Receiving

/-- Segments with alternating toggle bits, of which only the last one is marked, and the bytes that
they carry together. -/
inductive Segments : Bool → List Message → List UInt8 → Prop where
  | last {toggle : Bool} {m : Message} {unused : UInt8} {data : Vector UInt8 7} :
    Response.ofMessage m = .ok (.uploadSegment toggle unused true data) →
    Segments toggle [m] (data.toList.take (7 - unused.toNat))
  | more {toggle : Bool} {m : Message} {unused : UInt8} {data : Vector UInt8 7} {ms : List Message}
    {bytes : List UInt8} :
    Response.ofMessage m = .ok (.uploadSegment toggle unused false data) →
    Segments (!toggle) ms bytes →
    Segments toggle (m :: ms) (data.toList.take (7 - unused.toNat) ++ bytes)

/-- How the answers to a normal upload are decoded: one frame with the whole object, or one that may
announce its size, which says nothing if it is zero, and segments. -/
inductive Decodes : List Message → List UInt8 → Prop where
  | expedited {m : Message} {unused : UInt8} {sized : Bool} {a : Address} {data : Vector UInt8 4} :
    Response.ofMessage m = .ok (.confirmUpload unused true sized a data) →
    Decodes [m] (data.toList.take (if sized then 4 - unused.toNat else 4))
  | segmented {m : Message} {unused : UInt8} {sized : Bool} {a : Address} {data : Vector UInt8 4}
    {ms : List Message} {bytes : List UInt8} :
    Response.ofMessage m = .ok (.confirmUpload unused false sized a data) →
    Segments false ms bytes →
    (sized = true → (wordOf data).toNat ≠ 0 → bytes.length = (wordOf data).toNat) →
    Decodes (m :: ms) bytes

/-- The answer to frame `i` behind which the next segment is asked for. -/
def Goes : Nat → Message → Prop
  | 0, m => ∃ unused sized a data,
    Response.ofMessage m = .ok (.confirmUpload unused false sized a data)
  | i + 1, m => ∃ unused data,
    Response.ofMessage m = .ok (.uploadSegment (decide (i % 2 = 1)) unused false data)

section
variable (node : UInt8) (target : Address)

def initiationFrame : Message where
  id := .std (0x600 + node.toUInt16)
  data :=
    #v[0x40, byteAt target.index.toNat 0, byteAt target.index.toNat 1, target.sub, 0, 0, 0, 0]
  dlc := 8
  rtr := false

def frame : Nat → Message
  | 0 => initiationFrame node target
  | i + 1 => segmentRequest node (decide (i % 2 = 1))

end

end Receiving

open Receiving

def segmentReceiver (node : UInt8) (target : Address) : Conduct Fetching where
  opening := initiationFrame node target
  first := .opening
  hear
    | .segments toggle size bytes => .reading (join node toggle size bytes)
    | _ => .reading (begin node)
  again
    | .segments toggle _ _ => segmentRequest node toggle
    | _ => initiationFrame node target

theorem message_initiateUpload (node : NodeId) (target : Address) :
    (Request.initiateUpload target).message node = initiationFrame node.value target :=
  Request.message_eq node trivial trivial

theorem Call.carries_upload_stands {c : Call σ} :
    let k := segmentReceiver c.node.value c.target
    Carries (c.Stands k k.start {}) (c.FailsAt k) c.traced.upload fun object s =>
      ∃ d, c.Stands k ⟨[], .ended (.bytes object)⟩ d s := by
  intro k
  have hopening := message_initiateUpload c.node c.target
  have hstart : k.start
      = ⟨[(Request.initiateUpload c.target).message c.node], .waits .opening⟩ := by
    rw [hopening]
    rfl
  have hjoins : k.Joins c.node.value := ⟨fun _ _ _ _ => rfl, fun _ _ _ => rfl⟩
  rw [upload, hstart]
  exact carries_bind (carries_exchange_stands (begin c.node.value) (.of_plain trivial) (by simp)
    hopening.symm fun _ => rfl) fun r => carries_continueUpload_stands hjoins r

section
variable {node : UInt8} {target : Address} {toggle : Bool} {size : Option Nat}
  {bytes : List UInt8} {m : Message} {due : List Message} {st : Fetching} {v : Value}

theorem goes_of_hear_opening (h : (segmentReceiver node target).hear .opening m = .goes due st) :
    ∃ unused sized a data,
      Response.ofMessage m = .ok (.confirmUpload unused false sized a data) ∧
        due = [segmentRequest node false] ∧
        st = .segments false (if sized then some (wordOf data).toNat else none) [] := by
  obtain ⟨r, hr, hmove⟩ := reading_eq_goes h
  match r, hmove with
  | .confirmUpload unused false sized a data, hmove =>
    cases hmove
    exact ⟨unused, sized, a, data, hr, rfl, rfl⟩

theorem ends_of_hear_opening (h : (segmentReceiver node target).hear .opening m = .ends due v) :
    due = [] ∧ ∃ object, v = .bytes object ∧ Decodes [m] object := by
  obtain ⟨r, hr, hmove⟩ := reading_eq_ends h
  match r, hmove with
  | .confirmUpload unused true sized a data, hmove =>
    cases hmove
    exact ⟨rfl, _, rfl, .expedited hr⟩

theorem goes_of_hear_segments
    (h : (segmentReceiver node target).hear (.segments toggle size bytes) m = .goes due st) :
    ∃ unused data, Response.ofMessage m = .ok (.uploadSegment toggle unused false data) ∧
      due = [segmentRequest node !toggle] ∧
      st = .segments (!toggle) size (bytes ++ data.toList.take (7 - unused.toNat)) := by
  obtain ⟨r, hr, hmove⟩ := reading_eq_goes h
  match r, hmove with
  | .uploadSegment t unused last data, hmove =>
    rw [join] at hmove
    split at hmove
    · rename_i ht
      cases ht
      cases last with
      | true =>
        obtain hends | ⟨e, he⟩ := Move.sized_cases size _ (.ends [] (.bytes _))
        · cases hends.symm.trans hmove
        · cases he.symm.trans hmove
      | false =>
        cases hmove
        exact ⟨unused, data, hr, rfl, rfl⟩
    · cases hmove

theorem ends_of_hear_segments
    (h : (segmentReceiver node target).hear (.segments toggle size bytes) m = .ends due v) :
    due = [] ∧ ∃ object, v = .bytes (bytes ++ object) ∧ Segments toggle [m] object ∧
      ∀ n, size = some n → 0 < n → (bytes ++ object).length = n := by
  obtain ⟨r, hr, hmove⟩ := reading_eq_ends h
  match r, hmove with
  | .uploadSegment t unused last data, hmove =>
    rw [join] at hmove
    split at hmove
    · rename_i ht
      cases ht
      cases last with
      | true =>
        obtain ⟨hends, hsize⟩ := sized_eq_ends hmove
        cases hends
        exact ⟨rfl, _, rfl, .last hr, hsize⟩
      | false => cases hmove
    · cases hmove

theorem hear_uploadSegment {t : Bool} {unused : UInt8} {last : Bool} {data : Vector UInt8 7}
    (hm : Response.ofMessage m = .ok (.uploadSegment t unused last data)) :
    (segmentReceiver node target).hear (.segments toggle size bytes) m
      = join node toggle size bytes (.uploadSegment t unused last data) := by
  show Move.reading _ m = _
  rw [Move.reading, hm]

theorem hear_confirmUpload {unused : UInt8} {expedited sized : Bool} {a : Address}
    {data : Vector UInt8 4}
    (hm : Response.ofMessage m = .ok (.confirmUpload unused expedited sized a data)) :
    (segmentReceiver node target).hear .opening m
      = begin node (.confirmUpload unused expedited sized a data) := by
  show Move.reading _ m = _
  rw [Move.reading, hm]

theorem length_of_announced_iff {sized : Bool} {size length : Nat} :
    (∀ n, (if sized then some size else none) = some n → 0 < n → length = n)
      ↔ (sized = true → size ≠ 0 → length = size) := by
  cases sized with
  | false => simp
  | true => simp [Nat.pos_iff_ne_zero]

theorem Receiving.Segments.leads {heard asked ms : List Message} {more : List UInt8}
    (h : Segments toggle ms more)
    (hleads : (segmentReceiver node target).Leads heard asked
      (.goes due (.segments toggle size bytes)))
    (hsize : ∀ n, size = some n → 0 < n → (bytes ++ more).length = n) :
    ∃ asked, (segmentReceiver node target).Leads (heard ++ ms) asked
      (.ends [] (.bytes (bytes ++ more))) := by
  induction h generalizing heard asked due bytes with
  | @last toggle m unused data hm =>
    have hnext := hleads.hear m
    rw [hear_uploadSegment hm, join, if_pos rfl] at hnext
    dsimp only at hnext
    rw [if_pos rfl, Move.sized_of_length hsize] at hnext
    exact ⟨_, hnext⟩
  | @more toggle m unused data ms rest hm _ ih =>
    have hnext := hleads.hear m
    rw [hear_uploadSegment hm, join, if_pos rfl] at hnext
    rw [← List.append_assoc] at hsize ⊢
    obtain ⟨asked, hend⟩ := ih hnext hsize
    rw [List.append_assoc] at hend
    exact ⟨asked, hend⟩

theorem Receiving.Decodes.leads {heard : List Message} (h : Decodes heard bytes) :
    ∃ asked, (segmentReceiver node target).Leads heard asked (.ends [] (.bytes bytes)) := by
  cases h with
  | @expedited m unused sized a data hm =>
    have hnext := (Conduct.Leads.start (k := segmentReceiver node target)).hear m
    rw [show (segmentReceiver node target).first = .opening from rfl,
      hear_confirmUpload hm] at hnext
    exact ⟨_, hnext⟩
  | @segmented m unused sized a data ms _ hm hsegments hsize =>
    have hnext := (Conduct.Leads.start (k := segmentReceiver node target)).hear m
    rw [show (segmentReceiver node target).first = .opening from rfl,
      hear_confirmUpload hm] at hnext
    rw [← List.nil_append bytes] at hsize ⊢
    exact hsegments.leads hnext (length_of_announced_iff.mpr hsize)

theorem insists_segmentReceiver (node : NodeId) (target : Address) :
    (segmentReceiver node.value target).Insists where
  first := rfl
  hear {st} := by
    intro m due st' h
    cases st with
    | segments toggle size bytes =>
      obtain ⟨unused, data, -, rfl, rfl⟩ := goes_of_hear_segments h
      exact ⟨by simp [segmentReceiver], rfl⟩
    | _ =>
      have hopening : (segmentReceiver node.value target).hear .opening m = .goes due st' := h
      obtain ⟨unused, sized, a, data, -, rfl, rfl⟩ := goes_of_hear_opening hopening
      exact ⟨by simp [segmentReceiver], rfl⟩
  head st := by
    cases st with
    | segments toggle size bytes =>
      show (if toggle then 0x70 else 0x60 : UInt8) ≠ 0x80
      cases toggle <;> decide
    | _ =>
      show (0x40 : UInt8) ≠ 0x80
      decide

/-- What the answers so far lead to. Whatever segments are left, the object is decoded with them. -/
def Receiving.Led (heard : List Message) : Move Fetching → Prop
  | .goes _ .opening => heard = []
  | .goes _ (.segments toggle size bytes) =>
    (∃ i, heard.length = i + 1 ∧ toggle = decide (i % 2 = 1)) ∧
      ∀ ms more, Segments toggle ms more →
        (∀ n, size = some n → 0 < n → (bytes ++ more).length = n) →
        Decodes (heard ++ ms) (bytes ++ more)
  | .goes _ _ => False
  | .ends due v => due = [] ∧ ∃ object, v = .bytes object ∧ Decodes heard object
  | .fails _ => True

theorem Receiving.Led.hear {heard : List Message} (h : Led heard (.goes due st)) (m : Message) :
    Led (heard ++ [m]) ((segmentReceiver node target).hear st m) := by
  cases st with
  | opening =>
    obtain rfl : heard = [] := h
    cases hmove : (segmentReceiver node target).hear .opening m with
    | goes due' st' =>
      obtain ⟨unused, sized, a, data, hm, -, rfl⟩ := goes_of_hear_opening hmove
      exact ⟨⟨0, rfl, rfl⟩, fun ms more hsegments hsize =>
        .segmented hm hsegments (length_of_announced_iff.mp hsize)⟩
    | ends due' v => exact ends_of_hear_opening hmove
    | fails e => trivial
  | segments toggle size bytes =>
    obtain ⟨⟨i, hlength, htoggle⟩, hdecodes⟩ := h
    cases hmove : (segmentReceiver node target).hear (.segments toggle size bytes) m with
    | goes due' st' =>
      obtain ⟨unused, data, hm, -, rfl⟩ := goes_of_hear_segments hmove
      refine ⟨⟨i + 1, by simp [hlength], ?_⟩, fun ms more hsegments hsize => ?_⟩
      · rw [htoggle, odd_succ]
      · rw [List.append_assoc] at hsize ⊢
        rw [List.append_assoc, List.singleton_append]
        exact hdecodes (m :: ms) _ (.more hm hsegments) hsize
    | ends due' v =>
      obtain ⟨hdue, object, hv, hlast, hsize⟩ := ends_of_hear_segments hmove
      exact ⟨hdue, _, hv, hdecodes [m] object hlast hsize⟩
    | fails e => trivial
  | stream _ _ _ _ _ => exact h.elim
  | closing _ _ _ _ => exact h.elim

theorem Receiving.Led.goes {heard : List Message} (h : Led heard (.goes due st))
    {due' : List Message}
    {st' : Fetching} (hmove : (segmentReceiver node target).hear st m = .goes due' st') :
    Goes heard.length m ∧ due' = [frame node target (heard.length + 1)] := by
  cases st with
  | opening =>
    obtain rfl : heard = [] := h
    obtain ⟨unused, sized, a, data, hm, rfl, -⟩ := goes_of_hear_opening hmove
    exact ⟨⟨unused, sized, a, data, hm⟩, rfl⟩
  | segments toggle size bytes =>
    obtain ⟨⟨i, hlength, rfl⟩, -⟩ := h
    obtain ⟨unused, data, hm, rfl, -⟩ := goes_of_hear_segments hmove
    rw [hlength]
    refine ⟨⟨unused, data, hm⟩, ?_⟩
    rw [odd_succ]
    rfl
  | stream _ _ _ _ _ => exact h.elim
  | closing _ _ _ _ => exact h.elim

theorem led_of_leads {heard asked : List Message} {move : Move Fetching}
    (h : (segmentReceiver node target).Leads heard asked move) : Led heard move := by
  induction h with
  | start => exact rfl
  | hear m _ ih => exact ih.hear m

theorem frames_of_leads {heard asked : List Message} {move : Move Fetching}
    (h : (segmentReceiver node target).Leads heard asked move) :
    ∃ i, asked = (List.range (i + 1)).map (frame node target) ∧
      (∀ j < i, Answered Goes heard j) ∧ ∀ due st, move = .goes due st → heard.length = i := by
  induction h with
  | start => exact ⟨0, rfl, by simp, fun _ _ _ => rfl⟩
  | @hear heard asked due st m hleads ih =>
    obtain ⟨i, rfl, hanswered, hlength⟩ := ih
    obtain rfl := hlength due st rfl
    have hearlier : ∀ j < heard.length, Answered Goes (heard ++ [m]) j :=
      fun j hj => (hanswered j hj).append m
    cases hmove : (segmentReceiver node target).hear st m with
    | goes due' st' =>
      obtain ⟨hm, rfl⟩ := (led_of_leads hleads).goes hmove
      refine ⟨heard.length + 1, ?_, fun j hj => ?_, by simp⟩
      · rw [List.range_succ (n := heard.length + 1), List.map_append]
        rfl
      · obtain hj | rfl := Nat.lt_succ_iff_lt_or_eq.mp hj
        · exact hearlier j hj
        · exact answered_append_self.mpr hm
    | ends due' v =>
      have hled : Led _ ((segmentReceiver node target).hear st m) := (led_of_leads hleads).hear m
      obtain ⟨rfl, -⟩ := hmove ▸ hled
      exact ⟨heard.length, by simp [Move.due], hearlier, by simp⟩
    | fails e => exact ⟨heard.length, by simp [Move.due], hearlier, by simp⟩

/-- A toggle bit that is repeated or left out is the end of the upload. -/
theorem fails_of_wrong_toggle {heard asked : List Message} {move : Move Fetching}
    (h : (segmentReceiver node target).Leads heard asked move) {i : Nat} {t : Bool} {unused : UInt8}
    {last : Bool} {data : Vector UInt8 7} (hi : heard[i + 1]? = some m)
    (hm : Response.ofMessage m = .ok (.uploadSegment t unused last data))
    (ht : t ≠ decide (i % 2 = 1)) : move = .fails .toggleMismatch := by
  induction h with
  | start => simp at hi
  | @hear heard asked due st m' hleads ih =>
    -- The call is over with a wrong answer, so that no other one is taken behind it.
    obtain hlt | heq | hgt := Nat.lt_trichotomy (i + 1) heard.length
    · rw [List.getElem?_append_left hlt] at hi
      cases ih hi
    · rw [heq, List.getElem?_concat_length] at hi
      cases hi
      have hled := led_of_leads hleads
      cases st with
      | opening =>
        obtain rfl : heard = [] := hled
        cases heq
      | segments toggle size bytes =>
        obtain ⟨⟨i', hlength, htoggle⟩, -⟩ := hled
        obtain rfl : i' = i := by omega
        rw [hear_uploadSegment hm, join, htoggle]
        exact if_neg ht
      | stream _ _ _ _ _ => exact hled.elim
      | closing _ _ _ _ => exact hled.elim
    · rw [List.getElem?_eq_none (by simp; omega)] at hi
      cases hi

end

theorem uploadSegmented_explained (client : Client σ) (node : NodeId) (target : Address) (w : σ) :
    (segmentReceiver node.value target).Explains node.value target client.config .upload
      (client.observe node.value target .uploadSegmented w).2
      (client.perform node.value target .uploadSegmented w).1 := by
  have hperform : client.traced.perform node.value target .uploadSegmented (w, [])
      = Outcome.map .bytes ((client.call node target .upload).traced.run .segmented
          (client.call node target .upload).traced.upload (w, [])) := by
    rw [perform, uploadSegmented, transfer_node]
    rfl
  exact explained_of_perform client hperform Call.carries_upload_stands

/-- A normal upload gives what is decoded from its answers, and nothing if they cannot be decoded.
It asks for the segments in turn, each when the one before it was accepted. -/
theorem upload_decodes_answers (client : Client σ) (node : NodeId) (target : Address) (w : σ) :
    let events := (client.observe node.value target .uploadSegmented w).2
    let result := (client.perform node.value target .uploadSegmented w).1
    let heard := answers node.value events
    (∀ object, result = .ok (.bytes object) ↔ Decodes heard object) ∧
      (∀ i m t unused last data, heard[i + 1]? = some m →
        Response.ofMessage m = .ok (.uploadSegment t unused last data) →
        t ≠ decide (i % 2 = 1) → result = .error (.failed .toggleMismatch)) ∧
      ∀ before, before <+: events → ∃ n,
        Proceeds (frame node.value target) Goes node.value target client.config.retries.toNat before
          n := by
  intro events result heard
  have hk := insists_segmentReceiver node target
  have hexplains : (segmentReceiver node.value target).Explains node.value target client.config
      .upload events result := uploadSegmented_explained client node target w
  obtain ⟨asked, move, hleads, hresult⟩ := hexplains.leads hk.pairs
  refine ⟨fun object => ⟨fun hok => ?_, fun hdecodes => ?_⟩, ?_, fun before hbefore => ?_⟩
  · cases move with
    | goes due st => exact absurd hok (hresult _)
    | ends due v =>
      obtain ⟨rfl, object', rfl, hdecodes⟩ := led_of_leads hleads
      cases hok.symm.trans (hresult.resolve_right fun h => h.1 rfl)
      exact hdecodes
    | fails e => cases hok.symm.trans hresult
  · -- The answers leave no choice, so the call has come to what is decoded from them.
    have hdecoded : ∃ asked, (segmentReceiver node.value target).Leads heard asked
        (.ends [] (.bytes object)) := hdecodes.leads
    obtain ⟨asked', hends⟩ := hdecoded
    obtain ⟨-, rfl⟩ := hends.unique hleads
    exact hresult.resolve_right fun h => h.1 rfl
  · intro i m t unused last data hi hm ht
    obtain rfl := fails_of_wrong_toggle hleads hi hm ht
    exact hresult
  · have hframes : ∀ {heard asked move},
        (segmentReceiver node.value target).Leads heard asked move →
        asked = (List.range asked.length).map (frame node.value target) ∧
          ∀ i, i + 1 < asked.length → Answered Goes heard i := by
      intro heard asked move hleads
      obtain ⟨i, rfl, hanswered, -⟩ := frames_of_leads hleads
      exact ⟨by simp, fun j hj => hanswered j (by simpa using hj)⟩
    obtain ⟨asked, move, hleads, n, hn, hproceeds⟩ :=
      perform_proceeds client hk hexplains.obeyed hframes before hbefore
    exact ⟨n, hproceeds⟩

/-- Two segments, the second of which is asked for twice. -/
theorem upload_decodes_answers_of_script :
    let node : NodeId := ⟨5, by decide, by decide⟩
    let replies : List (List Response) :=
      [[.announce ⟨0x2000, 0⟩ (some 8)],
        [.segment false false [1, 2, 3, 4, 5, 6, 7] (by decide)], [],
        [.segment true true [8] (by decide)]]
    let client : Client (Script TransportError) :=
      { link := Script.link, config := { timeoutMs := 1 }, patience := 10 }
    let s : Script TransportError :=
      { replies := replies.map fun rs =>
          .ok (rs.map fun r => .event (.frame (r.message node)) 0 1) }
    let events := (client.observe 5 ⟨0x2000, 0⟩ .uploadSegmented s).2
    let object : List UInt8 := [1, 2, 3, 4, 5, 6, 7, 8]
    sentFrames events = [initiationFrame 5 ⟨0x2000, 0⟩, segmentRequest 5 false,
        segmentRequest 5 true, segmentRequest 5 true] ∧
      (client.perform 5 ⟨0x2000, 0⟩ .uploadSegmented s).1 = .ok (.bytes object) ∧
      Decodes (answers 5 events) object := by
  intro node replies client s events object
  have hresult : (client.perform 5 ⟨0x2000, 0⟩ .uploadSegmented s).1 = .ok (.bytes object) := by
    decide +kernel
  refine ⟨?_, hresult, ((upload_decodes_answers client node ⟨0x2000, 0⟩ s).1 object).mp hresult⟩
  decide +kernel

end Canopen.Client
