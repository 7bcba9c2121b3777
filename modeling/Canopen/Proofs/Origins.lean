import Canopen.Proofs.BlockReceiver
import Canopen.Proofs.SegmentReceiver

/-!
Where the answer to the start of an upload may come from. A client tells the answers of its server
from all else by their ID alone. The address in them is not looked at, so an answer to an earlier
upload that comes late is taken for one to the upload under way.
-/

set_option autoImplicit false

namespace Canopen

open Can (Message TransportError)
open Sdo

def Sdo.Response.object? : Response → Option Address
  | .confirmUpload _ _ _ a _ | .confirmBlockUpload _ _ a _ => some a
  | _ => none

def Sdo.Response.readdressed (a : Address) : Response → Response
  | .confirmUpload unused expedited sized _ data => .confirmUpload unused expedited sized a data
  | .confirmBlockUpload crc sized _ size => .confirmBlockUpload crc sized a size
  | r => r

namespace Client

open Transfer Fetching

variable {σ S : Type}

/-- The answers that an upload may start with. -/
def Mode.Starts (mode : Mode) : Response → Prop
  | .confirmUpload .. => True
  | .confirmBlockUpload .. => mode = .block
  | _ => False

def Operation.uploadMode (config : Config) : Operation → Mode
  | upload => config.uploadMode
  | uploadBlock => .block
  | _ => .segmented

def uploader (mode : Mode) (config : Config) (node : UInt8) (target : Address) : Conduct Fetching :=
  match mode with
  | .block => blockReceiver config node target
  | _ => segmentReceiver node target

namespace Conduct

variable {k : Conduct S}

theorem pairs_of_fresh
    (hfresh : ∀ {heard asked due s m due' s'}, k.Leads heard asked (.goes due s) →
      k.hear s m = .goes due' s' → s' ≠ k.first)
    (hhead : ∀ {heard asked due s}, k.Leads heard asked (.goes due s) →
      (k.again s).data.get 0 ≠ 0x80) :
    k.Pairs fun _ asked told => asked = [] ↔ told = [] where
  fresh := hfresh
  head := hhead
  nil := Iff.rfl
  next m _ := by simp
  again hleads _ := by simp [hleads.asked_ne]
  empty h := h

theorem Leads.unheard {heard asked : List Message} {move : Move S} (h : k.Leads heard asked move)
    (hheard : heard = []) : move = .goes [k.opening] k.first := by
  cases h with
  | start => rfl
  | hear m _ => simp at hheard

/-- What an upload comes to is decided by its first answer, or the client goes on behind it. -/
theorem Leads.first {heard asked rest : List Message} {move : Move S} {m : Message}
    (h : k.Leads heard asked move) (hheard : heard = m :: rest) :
    (∃ due s, k.hear k.first m = .goes due s) ∨ k.hear k.first m = move := by
  induction h generalizing rest with
  | start => cases hheard
  | @hear heard asked due s x hleads ih =>
    cases heard with
    | nil =>
      obtain ⟨rfl, rfl⟩ := List.cons.inj hheard
      cases hleads.unheard rfl
      exact .inr rfl
    | cons y heard =>
      obtain ⟨rfl, -⟩ := List.cons.inj hheard
      rcases ih rfl with hgoes | hmove
      · exact .inl hgoes
      · exact .inl ⟨due, s, hmove⟩

/-- An answer in the place of the first one that leads to the same leads to the same in the end. -/
theorem Leads.replace {k' : Conduct S} (hhear : k'.hear = k.hear) (hfirst : k'.first = k.first)
    {m m' : Message} (hm : k.hear k.first m' = k.hear k.first m) {heard asked rest : List Message}
    {move : Move S} (h : k.Leads heard asked move) (hheard : heard = m :: rest) :
    ∃ asked', k'.Leads (m' :: rest) asked' move := by
  induction h generalizing rest with
  | start => cases hheard
  | @hear heard asked due s x hleads ih =>
    cases heard with
    | nil =>
      obtain ⟨rfl, rfl⟩ := List.cons.inj hheard
      cases hleads.unheard rfl
      have hstart := (Leads.start (k := k')).hear m'
      rw [hfirst, hhear, hm] at hstart
      exact ⟨_, hstart⟩
    | cons y heard =>
      obtain ⟨rfl, rfl⟩ := List.cons.inj hheard
      obtain ⟨asked', hleads'⟩ := ih rfl
      have hnext := hleads'.hear x
      rw [hhear] at hnext
      exact ⟨_, hnext⟩

end Conduct

def Fetching.Steady : Fetching → Prop
  | .opening => False
  | .stream _ _ _ _ request => request.data.get 0 ≠ 0x80
  | _ => True

section
variable {config : Config} {node : UInt8} {target : Address} {due : List Message}
  {st st' : Fetching} {m : Message}

theorem steady_of_begin {r : Response} (h : begin node r = .goes due st') : st'.Steady := by
  match r, h with
  | .confirmUpload _ false _ _ _, h =>
    cases h
    trivial

theorem steady_of_hearSegment {checked : Bool} {size : Option Nat} {count : Nat}
    {taken : List Message} {request : Message} (hrequest : request.data.get 0 ≠ 0x80)
    (h : hearSegment config node checked size count taken request m = .goes due st') :
    st'.Steady := by
  have hgoOn : ∀ count taken, goOn config node checked size count taken request m = .goes due st' →
      st'.Steady := by
    intro count taken hmove
    rw [goOn] at hmove
    split at hmove
    · cases hmove
      exact Call.head_acknowledgementFrame _ _ _
    · cases hmove
      exact hrequest
  rw [hearSegment] at h
  split at h
  · cases h
  split at h
  · cases h
  split at h
  · cases h
  rw [advance] at h
  split at h
  · split at h
    · cases h
      trivial
    · exact hgoOn _ _ h
  · exact hgoOn _ _ h

theorem steady_of_hear (hst : st = .opening ∨ st.Steady)
    (h : (blockReceiver config node target).hear st m = .goes due st') : st'.Steady := by
  cases st with
  | opening =>
    obtain ⟨r, -, hr⟩ := reading_eq_goes h
    unfold beginBlocks at hr
    split at hr
    · cases hr
      show (0xA3 : UInt8) ≠ 0x80
      decide
    · exact steady_of_begin hr
  | stream checked size count taken request =>
    obtain hopening | hrequest := hst
    · cases hopening
    · exact steady_of_hearSegment hrequest h
  | closing checked size count taken =>
    obtain ⟨r, -, hr⟩ := reading_eq_goes h
    unfold finish at hr
    split at hr
    · dsimp only at hr
      split at hr
      · cases hr
      · obtain hends | ⟨e, he⟩ := Move.sized_cases size _ (.ends [completionFrame node] (.bytes _))
        · cases hends.symm.trans hr
        · cases he.symm.trans hr
    · cases hr
  | segments toggle size bytes =>
    have hsegments : (segmentReceiver node target).hear (.segments toggle size bytes) m
        = .goes due st' := h
    obtain ⟨unused, data, -, -, rfl⟩ := goes_of_hear_segments hsegments
    trivial

theorem steady_of_leads {heard asked : List Message} {move : Move Fetching}
    (h : (blockReceiver config node target).Leads heard asked move) (hmove : move = .goes due st) :
    st = .opening ∨ st.Steady := by
  induction h generalizing due st with
  | start =>
    cases hmove
    exact .inl rfl
  | hear m _ ih => exact .inr (steady_of_hear (ih rfl) hmove)

theorem pairs_blockReceiver (config : Config) (node : UInt8) (target : Address) :
    (blockReceiver config node target).Pairs fun _ asked told => asked = [] ↔ told = [] := by
  refine Conduct.pairs_of_fresh ?_ ?_
  · rintro heard asked due st m due' st' hleads h rfl
    exact steady_of_hear (steady_of_leads hleads rfl) h
  · intro heard asked due st hleads
    rcases steady_of_leads hleads rfl with rfl | hst
    · show (if config.useCrc then 0xA4 else 0xA0 : UInt8) ≠ 0x80
      cases config.useCrc <;> decide
    · cases st with
      | opening => exact hst.elim
      | stream checked size count taken request =>
        show (if 0 < count then _ else _ : Message).data.get 0 ≠ 0x80
        split
        · exact Call.head_acknowledgementFrame _ _ _
        · exact hst
      | closing checked size count taken => exact Call.head_acknowledgementFrame _ _ _
      | segments toggle size bytes =>
        show (if toggle then 0x70 else 0x60 : UInt8) ≠ 0x80
        cases toggle <;> decide

end

theorem uploadBlock_explained (client : Client σ) (node : NodeId) (target : Address) (w : σ) :
    (blockReceiver client.config node.value target).Explains node.value target client.config .upload
      (client.observe node.value target .uploadBlock w).2
      (client.perform node.value target .uploadBlock w).1 := by
  have hblockSize := (Config.blockSize_of_valid client.valid).1
  have hperform : client.traced.perform node.value target .uploadBlock (w, [])
      = Outcome.map .bytes ((client.call node target .upload).traced.run .block
          (client.call node target .upload).traced.uploadBlock (w, [])) := by
    rw [perform, uploadBlock, transfer_node]
    rfl
  exact explained_of_perform client hperform (Call.carries_uploadBlock_stands rfl hblockSize)

namespace Operation

def made (config : Config) (op : Operation) : Operation :=
  match op.uploadMode config with
  | .block => .uploadBlock
  | _ => .uploadSegmented

def read : Operation → Value → Except Stop Value
  | uploadNumber, .bytes data =>
    if data.length ≤ 4 then .ok (.number (wordOf (padTo 4 data)))
    else .error (.failed (.invalidDataLength data.length))
  | _, v => .ok v

end Operation

theorem perform_made (client : Client σ) (node : UInt8) (target : Address) {op : Operation}
    (hop : op.Fetches) (w : σ) :
    client.perform node target op w
      = ((client.perform node target (op.made client.config) w).1.bind op.read,
        (client.perform node target (op.made client.config) w).2) := by
  have hsame : ∀ o : Outcome σ Value, o = (o.1.bind .ok, o.2) := by
    rintro ⟨result, v⟩
    cases result <;> rfl
  cases op with
  | upload =>
    have hupload : client.perform node target .upload w
        = client.perform node target (Operation.upload.made client.config) w := by
      rw [perform, upload, Operation.made, Operation.uploadMode]
      cases client.config.uploadMode <;> rfl
    rw [hupload]
    exact hsame _
  | uploadSegmented => exact hsame _
  | uploadBlock => exact hsame _
  | uploadNumber =>
    show Outcome.map Value.number (client.uploadNumber node target w)
      = ((Outcome.map Value.bytes (client.uploadSegmented node target w)).1.bind _,
        (Outcome.map Value.bytes (client.uploadSegmented node target w)).2)
    rw [uploadNumber]
    generalize client.uploadSegmented node target w = o
    obtain ⟨result, v⟩ := o
    cases result with
    | ok data =>
      by_cases hlength : data.length ≤ 4 <;>
        simp [Outcome.map, Except.map, Except.bind, Operation.read, hlength]
    | error e => rfl
  | _ => exact hop.elim

theorem observe_made (client : Client σ) (node : UInt8) (target : Address) {op : Operation}
    (hop : op.Fetches) (w : σ) :
    (client.observe node target op w).2
      = (client.observe node target (op.made client.config) w).2 := by
  show (client.traced.perform node target op (w, [])).2.2 = _
  rw [perform_made client.traced node target hop]
  rfl

theorem made_explained (client : Client σ) (node : NodeId) (target : Address) (op : Operation)
    (w : σ) :
    (uploader (op.uploadMode client.config) client.config node.value target).Explains node.value
      target client.config .upload
      (client.observe node.value target (op.made client.config) w).2
      (client.perform node.value target (op.made client.config) w).1 := by
  rw [Operation.made]
  cases op.uploadMode client.config with
  | block => exact uploadBlock_explained client node target w
  | segmented => exact uploadSegmented_explained client node target w
  | expedited => exact uploadSegmented_explained client node target w

section
variable {mode : Mode} {config : Config} {node : UInt8} {target : Address} {m m' : Message}
  {r : Response} {a : Address}

def beginUpload (mode : Mode) (config : Config) (node : UInt8) : Response → Move Fetching :=
  match mode with
  | .block => beginBlocks config node
  | _ => begin node

theorem hear_opening :
    (uploader mode config node target).hear .opening m
      = .reading (beginUpload mode config node) m := by
  cases mode <;> rfl

theorem starts_of_hear (h : ∀ e, (uploader mode config node target).hear .opening m ≠ .fails e) :
    ∃ r, Response.ofMessage m = .ok r ∧ mode.Starts r := by
  rw [hear_opening] at h
  obtain ⟨e, he⟩ | ⟨r, hr, hmove⟩ := Move.reading_cases (beginUpload mode config node) m
  · exact absurd he (h e)
  · refine ⟨r, hr, ?_⟩
    rw [hmove] at h
    cases r with
    | confirmUpload => trivial
    | confirmBlockUpload =>
      cases mode with
      | block => rfl
      | _ => exact absurd rfl (h .unexpectedResponse)
    | _ =>
      refine absurd ?_ (h .unexpectedResponse)
      cases mode <;> rfl

/-- The address in the first answer makes no difference. -/
theorem hear_readdressed (hm : Response.ofMessage m = .ok r)
    (hm' : Response.ofMessage m' = .ok (r.readdressed a)) :
    (uploader mode config node target).hear .opening m'
      = (uploader mode config node target).hear .opening m := by
  rw [hear_opening, hear_opening, Move.reading, Move.reading, hm, hm']
  cases r with
  | confirmUpload unused expedited sized b data =>
    cases mode <;> cases expedited <;> rfl
  | confirmBlockUpload crc sized b size => cases mode <;> rfl
  | _ => rfl

theorem first_uploader : (uploader mode config node target).first = .opening := by
  cases mode <;> rfl

theorem hear_uploader (mode : Mode) (config : Config) (node : UInt8) (target target' : Address) :
    (uploader mode config node target').hear = (uploader mode config node target).hear := by
  cases mode <;> rfl

theorem leads_readdressed (target' : Address) (hm : Response.ofMessage m = .ok r)
    (hm' : Response.ofMessage m' = .ok (r.readdressed a)) {rest asked : List Message}
    {move : Move Fetching} (h : (uploader mode config node target).Leads (m :: rest) asked move) :
    ∃ asked', (uploader mode config node target').Leads (m' :: rest) asked' move := by
  let k := uploader mode config node target
  have hfirst : (uploader mode config node target').first = k.first := by
    rw [first_uploader, first_uploader]
  have hsame : k.hear k.first m' = k.hear k.first m := by
    rw [first_uploader, hear_readdressed hm hm']
  exact h.replace (hear_uploader ..) hfirst hsame rfl

theorem pairs_uploader (mode : Mode) (config : Config) (node : NodeId) (target : Address) :
    ∃ R, (uploader mode config node.value target).Pairs R := by
  cases mode with
  | block => exact ⟨_, pairs_blockReceiver config node.value target⟩
  | _ => exact ⟨_, (insists_segmentReceiver node target).pairs⟩

end

theorem bind_eq_ok {ε α β : Type} {x : Except ε α} {f : α → Except ε β} {b : β}
    (h : x.bind f = .ok b) : ∃ a, x = .ok a ∧ f a = .ok b := by
  cases x with
  | error e => cases h
  | ok a => exact ⟨a, rfl, h⟩

/-- What an upload gives starts with the first answer that was taken once something was sent.
Whatever object that answer names, the upload gives the same, unless its transport fails. -/
theorem upload_takes_any_address (client : Client σ) (node : NodeId) (target : Address)
    {op : Operation} (hop : op.Fetches) (w : σ) {v : Value}
    (h : (client.perform node.value target op w).1 = .ok v) :
    ∃ m rest r, answers node.value (client.observe node.value target op w).2 = m :: rest ∧
      Response.ofMessage m = .ok r ∧ (op.uploadMode client.config).Starts r ∧
      ∀ {τ : Type} (other : Client τ) (target' a : Address) (w' : τ) (m' : Message),
        other.config = client.config → Response.ofMessage m' = .ok (r.readdressed a) →
        answers node.value (other.observe node.value target' op w').2 = m' :: rest →
        (other.perform node.value target' op w').1 = .ok v ∨
          ∃ cause, (other.perform node.value target' op w').1
            = .error (.failed (.transport cause)) := by
  obtain ⟨R, hk⟩ := pairs_uploader (op.uploadMode client.config) client.config node target
  obtain ⟨asked, move, hleads, hresult⟩ := (made_explained client node target op w).leads hk
  rw [perform_made client node.value target hop] at h
  rw [observe_made client node.value target hop]
  obtain ⟨object, hobject, hread⟩ := bind_eq_ok h
  cases move with
  | goes due st => exact absurd hobject (hresult object)
  | fails e => cases hobject.symm.trans hresult
  | ends due object' =>
    obtain rfl : object = object' := by
      obtain hok | ⟨-, cause, herror⟩ := hresult
      · exact Except.ok.inj (hobject.symm.trans hok)
      · cases hobject.symm.trans herror
    generalize answers node.value _ = heard at hleads ⊢
    cases heard with
    | nil => cases hleads.unheard rfl
    | cons m rest =>
      -- Another first answer that leads to the same may stand in the place of this one.
      have hfirst := hleads.first rfl
      rw [first_uploader] at hfirst
      obtain ⟨r, hr, hstarts⟩ := starts_of_hear fun e he => by
        obtain ⟨due', st, hgoes⟩ | hends := hfirst
        · cases he.symm.trans hgoes
        · cases he.symm.trans hends
      refine ⟨m, rest, r, rfl, hr, hstarts, ?_⟩
      intro τ other target' a w' m' hconfig hm' hheard'
      have hexplains := made_explained other node target' op w'
      rw [observe_made other node.value target' hop] at hheard'
      rw [perform_made other node.value target' hop]
      rw [hconfig] at hexplains hheard' ⊢
      obtain ⟨R', hk'⟩ := pairs_uploader (op.uploadMode client.config) client.config node target'
      obtain ⟨asked', move', hleads', hresult'⟩ := hexplains.leads hk'
      rw [hheard'] at hleads'
      obtain ⟨asked'', hreplaced⟩ := leads_readdressed target' hr hm' hleads
      obtain ⟨-, rfl⟩ := hleads'.unique hreplaced
      obtain hok | ⟨-, cause, herror⟩ := hresult'
      · exact .inl (by rw [hok]; exact hread)
      · exact .inr ⟨cause, by rw [herror]; rfl⟩

/-- The answer to an upload that timed out comes during the next one, which asks for another object
and takes it for its own. -/
theorem late_answer_taken_for_another_object :
    let node : NodeId := ⟨5, by decide, by decide⟩
    let answer := Response.expedited ⟨0x2000, 0⟩ [0xAA] (by decide)
    let client : Client (Script TransportError) :=
      { link := Script.link, config := { timeoutMs := 1, retries := 0 }, patience := 10 }
    let s : Script TransportError :=
      { replies := [.ok [.event (.frame (answer.message node)) 1500 1]] }
    let first := client.perform 5 ⟨0x2000, 0⟩ .uploadSegmented s
    let second := client.perform 5 ⟨0x2001, 0⟩ .uploadSegmented first.2
    let heard := answers 5 (client.observe 5 ⟨0x2001, 0⟩ .uploadSegmented first.2).2
    first.1 = .error (.failed (.timeout 1)) ∧ second.1 = .ok (.bytes [0xAA]) ∧
      heard = [answer.message node] ∧ Response.ofMessage (answer.message node) = .ok answer ∧
      answer.object? ≠ some ⟨0x2001, 0⟩ := by
  intro node answer client s first second heard
  refine ⟨?_, ?_, ?_, ?_, ?_⟩
  · decide +kernel
  · decide +kernel
  · decide +kernel
  · decide +kernel
  · decide

/-- The answer names another object than the one that was asked for. -/
theorem upload_takes_any_address_of_script :
    let node : NodeId := ⟨5, by decide, by decide⟩
    let answer := Response.expedited ⟨0x2000, 0⟩ [0xAA] (by decide)
    let client : Client (Script TransportError) := { link := Script.link, patience := 10 }
    let s : Script TransportError :=
      { replies := [.ok [.event (.frame (answer.message node)) 0 1]] }
    Operation.uploadSegmented.Fetches ∧
      (client.perform 5 ⟨0x2001, 0⟩ .uploadSegmented s).1 = .ok (.bytes [0xAA]) ∧
      ∃ m rest r, answers 5 (client.observe 5 ⟨0x2001, 0⟩ .uploadSegmented s).2 = m :: rest ∧
        Response.ofMessage m = .ok r ∧ Mode.segmented.Starts r := by
  intro node answer client s
  have hresult : (client.perform 5 ⟨0x2001, 0⟩ .uploadSegmented s).1 = .ok (.bytes [0xAA]) := by
    decide +kernel
  have hfetches : Operation.uploadSegmented.Fetches := trivial
  obtain ⟨m, rest, r, hheard, hm, hstarts, -⟩ :=
    upload_takes_any_address client node ⟨0x2001, 0⟩ hfetches s hresult
  exact ⟨hfetches, hresult, m, rest, r, hheard, hm, hstarts⟩

end Client

end Canopen
