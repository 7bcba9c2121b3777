import Canopen.Proofs.CanonicalFrames

set_option autoImplicit false

namespace Canopen

namespace Payload

theorem ofList?_self (p : Payload) : ofList? p.toList = some p := by
  have h := ofList?_toList p []
  rwa [List.append_nil] at h

theorem headD_toList (p : Payload) (rest : List UInt8) :
    (p.toList ++ rest).headD 0 = p.get 0 := by
  obtain ⟨⟨l⟩, h⟩ := p
  match l, h with
  | [_, _, _, _, _, _, _, _], _ => rfl

theorem length_lt_or_eq_append (bytes : List UInt8) :
    bytes.length < 8 ∨ ∃ (p : Payload) (rest : List UInt8), bytes = p.toList ++ rest := by
  match bytes with
  | [] | [_] | [_, _] | [_, _, _] | [_, _, _, _] | [_, _, _, _, _] | [_, _, _, _, _, _]
  | [_, _, _, _, _, _, _] => exact .inl (by simp)
  | b0 :: b1 :: b2 :: b3 :: b4 :: b5 :: b6 :: b7 :: rest =>
    exact .inr ⟨#v[b0, b1, b2, b3, b4, b5, b6, b7], rest, rfl⟩

end Payload

namespace Sdo

/-- The specifier that neither side uses. -/
def Command.vacant (command : UInt8) : Bool := command.toNat / 32 = 7

def Request.unknown (command : UInt8) : Bool := Command.vacant command

def Response.unassigned (command : UInt8) : Bool := command.toNat / 32 = 5 && command.toNat % 4 = 3

def Response.unknown (command : UInt8) : Bool :=
  Command.vacant command || Response.unassigned command

def BlockSegment.unknown (_ : UInt8) : Bool := false

def BlockSegment.Fits (s : BlockSegment) : Prop := s.seqno.toNat ≤ 127

/-- Why bytes are no message of a format. The length is looked at first. -/
def refusal? (unknown : UInt8 → Bool) (bytes : List UInt8) : Option ParseError :=
  if bytes.length < 8 then some (.malformedLength (UInt8.ofNat bytes.length))
  else if unknown (bytes.headD 0) then some (.unknownCommandSpecifier (bytes.headD 0))
  else none

/-- Messages that fit are written into bytes that are read as the same message again. Bytes are
refused for their length or for their command; all others are read, as a message that fits. -/
structure Format {α : Type} (parse : List UInt8 → Except ParseError α) (toBytes : α → Payload)
    (Fits : α → Prop) (unknown : UInt8 → Bool) : Prop where
  reads_back : ∀ message, Fits message → parse (toBytes message).toList = .ok message
  refuses : ∀ bytes e, refusal? unknown bytes = some e → parse bytes = .error e
  reads : ∀ bytes, refusal? unknown bytes = none →
    ∃ message, parse bytes = .ok message ∧ Fits message
  first_eight : ∀ bytes, parse (bytes.take 8) = parse bytes

section
variable {α : Type} {parse : List UInt8 → Except ParseError α}
  {ofPayload : Payload → Except ParseError α} {toBytes : α → Payload} {Fits : α → Prop}
  {unknown : UInt8 → Bool}

theorem refusal?_of_short {bytes : List UInt8} (h : bytes.length < 8) :
    refusal? unknown bytes = some (.malformedLength (UInt8.ofNat bytes.length)) := if_pos h

theorem refusal?_append (p : Payload) (rest : List UInt8) :
    refusal? unknown (p.toList ++ rest) =
      if unknown (p.get 0) then some (.unknownCommandSpecifier (p.get 0)) else none := by
  have hlength : ¬(p.toList ++ rest).length < 8 := by
    rw [List.length_append, Vector.length_toList]
    omega
  rw [refusal?, if_neg hlength, p.headD_toList]

theorem Format.of_payload
    (hparse : ∀ bytes, parse bytes = match Payload.ofList? bytes with
      | some p => ofPayload p
      | none => .error (.malformedLength (UInt8.ofNat bytes.length)))
    (hback : ∀ message, Fits message → ofPayload (toBytes message) = .ok message)
    (hunknown : ∀ p, unknown (p.get 0) = true →
      ofPayload p = .error (.unknownCommandSpecifier (p.get 0)))
    (hknown : ∀ p, unknown (p.get 0) = false →
      ∃ message, ofPayload p = .ok message ∧ Fits message) :
    Format parse toBytes Fits unknown := by
  have hshort : ∀ bytes : List UInt8, bytes.length < 8 →
      parse bytes = .error (.malformedLength (UInt8.ofNat bytes.length)) := by
    intro bytes h
    rw [hparse, (Payload.ofList?_eq_none_iff bytes).mpr h]
  have hlong : ∀ (p : Payload) (rest : List UInt8), parse (p.toList ++ rest) = ofPayload p := by
    intro p rest
    rw [hparse, Payload.ofList?_toList]
  have hself : ∀ p : Payload, parse p.toList = ofPayload p := by
    intro p
    rw [hparse, p.ofList?_self]
  refine ⟨fun message h => (hself _).trans (hback message h), fun bytes e h => ?_,
    fun bytes h => ?_, fun bytes => ?_⟩
  · rcases Payload.length_lt_or_eq_append bytes with hb | ⟨p, rest, rfl⟩
    · rw [refusal?_of_short hb] at h
      cases h
      exact hshort bytes hb
    · rw [refusal?_append] at h
      split at h
      · rename_i hu
        cases h
        exact (hlong p rest).trans (hunknown p hu)
      · cases h
  · rcases Payload.length_lt_or_eq_append bytes with hb | ⟨p, rest, rfl⟩
    · rw [refusal?_of_short hb] at h
      cases h
    · rw [refusal?_append] at h
      split at h
      · cases h
      · rename_i hu
        obtain ⟨message, hread, hfits⟩ := hknown p (Bool.eq_false_iff.mpr hu)
        exact ⟨message, (hlong p rest).trans hread, hfits⟩
  · rcases Payload.length_lt_or_eq_append bytes with hb | ⟨p, rest, rfl⟩
    · rw [List.take_of_length_le (Nat.le_of_lt hb)]
    · rw [List.take_left' p.length_toList, hself, hlong]

end

theorem ClientCommand.ofSpecifier?_eq_none_iff (command : UInt8) :
    ofSpecifier? (Command.specifier command) = none ↔ Command.vacant command = true := by
  refine UInt8.forall_of_lt command command.toNat_lt ?_
  decide +kernel

theorem ServerCommand.ofSpecifier?_eq_none_iff (command : UInt8) :
    ofSpecifier? (Command.specifier command) = none ↔ Command.vacant command = true := by
  refine UInt8.forall_of_lt command command.toNat_lt ?_
  decide +kernel

theorem Response.unassigned_iff (command : UInt8) :
    Response.unassigned command = true ↔
      ServerCommand.ofSpecifier? (Command.specifier command) = some .blockDownload ∧
        Command.subcommand command = 3 := by
  refine UInt8.forall_of_lt command command.toNat_lt ?_
  decide +kernel

theorem Command.subcommand_last {command : UInt8} (h0 : subcommand command ≠ 0)
    (h1 : subcommand command ≠ 1) (h2 : subcommand command ≠ 2) : subcommand command = 3 := by
  revert h0 h1 h2
  refine UInt8.forall_of_lt command command.toNat_lt ?_
  decide +kernel

namespace Request

theorem ofPayload_unknown {p : Payload} (h : unknown (p.get 0) = true) :
    ofPayload p = .error (.unknownCommandSpecifier (p.get 0)) := by
  have hspecifier := (ClientCommand.ofSpecifier?_eq_none_iff (p.get 0)).mpr h
  simp only [ofPayload, hspecifier]

theorem ofPayload_known {p : Payload} (h : unknown (p.get 0) = false) :
    ∃ r, ofPayload p = .ok r ∧ r.Fits := by
  have hsome : ClientCommand.ofSpecifier? (Command.specifier (p.get 0)) ≠ none := by
    rw [Ne, ClientCommand.ofSpecifier?_eq_none_iff, ← unknown, h]
    decide
  obtain ⟨c, hc⟩ := Option.ne_none_iff_exists'.mp hsome
  simp only [ofPayload, hc]
  cases c with
  | downloadSegment => exact ⟨_, rfl, toNat_and_le _ 7⟩
  | initiateDownload => exact ⟨_, rfl, toNat_and_le _ 3⟩
  | initiateUpload | uploadSegment | abort => exact ⟨_, rfl, trivial⟩
  | blockUpload =>
    dsimp only
    split <;> exact ⟨_, rfl, trivial⟩
  | blockDownload =>
    dsimp only
    split
    · exact ⟨_, rfl, toNat_and_le _ 7⟩
    · exact ⟨_, rfl, trivial⟩

theorem format : Format parse toBytes Fits unknown :=
  .of_payload (fun _ => rfl) ofPayload_toBytes (fun _ => ofPayload_unknown)
    (fun _ => ofPayload_known)

end Request

namespace Response

theorem ofPayload_unknown {p : Payload} (h : unknown (p.get 0) = true) :
    ofPayload p = .error (.unknownCommandSpecifier (p.get 0)) := by
  rcases Bool.or_eq_true_iff.mp h with hvacant | hunassigned
  · have hspecifier := (ServerCommand.ofSpecifier?_eq_none_iff (p.get 0)).mpr hvacant
    simp only [ofPayload, hspecifier]
  · obtain ⟨hspecifier, hsub⟩ := (unassigned_iff (p.get 0)).mp hunassigned
    simp only [ofPayload, hspecifier, hsub]
    rfl

theorem ofPayload_known {p : Payload} (h : unknown (p.get 0) = false) :
    ∃ r, ofPayload p = .ok r ∧ r.Fits := by
  obtain ⟨hvacant, hunassigned⟩ := Bool.or_eq_false_iff.mp h
  have hsome : ServerCommand.ofSpecifier? (Command.specifier (p.get 0)) ≠ none := by
    rw [Ne, ServerCommand.ofSpecifier?_eq_none_iff, hvacant]
    decide
  obtain ⟨c, hc⟩ := Option.ne_none_iff_exists'.mp hsome
  simp only [ofPayload, hc]
  cases c with
  | uploadSegment => exact ⟨_, rfl, toNat_and_le _ 7⟩
  | upload => exact ⟨_, rfl, toNat_and_le _ 3⟩
  | downloadSegment | download | abort => exact ⟨_, rfl, trivial⟩
  | blockDownload =>
    dsimp only
    split
    · exact ⟨_, rfl, trivial⟩
    · exact ⟨_, rfl, trivial⟩
    · exact ⟨_, rfl, trivial⟩
    · rename_i h0 h1 h2
      rw [(unassigned_iff (p.get 0)).mpr ⟨hc, Command.subcommand_last h0 h1 h2⟩] at hunassigned
      cases hunassigned
  | blockUpload =>
    dsimp only
    split
    · exact ⟨_, rfl, toNat_and_le _ 7⟩
    · exact ⟨_, rfl, trivial⟩

theorem format : Format parse toBytes Fits unknown :=
  .of_payload (fun _ => rfl) ofPayload_toBytes (fun _ => ofPayload_unknown)
    (fun _ => ofPayload_known)

end Response

namespace BlockSegment

theorem format : Format parse toBytes Fits unknown := by
  refine .of_payload (fun _ => rfl) (fun s h => ?_) (fun _ h => nomatch h) (fun p _ => ?_)
  · exact congrArg Except.ok (s.ofPayload_toBytes (Nat.lt_succ_of_le h))
  · exact ⟨ofPayload p, rfl, toNat_and_le _ 0x7f⟩

end BlockSegment

theorem fits_of_decode {α : Type} {ofPayload : Payload → Except ParseError α} {Fits : α → Prop}
    {unknown : UInt8 → Bool}
    (hunknown : ∀ p, unknown (p.get 0) = true →
      ofPayload p = .error (.unknownCommandSpecifier (p.get 0)))
    (hknown : ∀ p, unknown (p.get 0) = false →
      ∃ message, ofPayload p = .ok message ∧ Fits message)
    {decoded : Except ParseError Frame} {message : α}
    (h : (do ofPayload (← decoded).payload) = .ok message) : Fits message := by
  cases decoded with
  | error e => cases h
  | ok frame =>
    replace h : ofPayload frame.payload = .ok message := h
    cases hhead : unknown (frame.payload.get 0) with
    | true =>
      rw [hunknown _ hhead] at h
      cases h
    | false =>
      obtain ⟨message', hread, hfits⟩ := hknown _ hhead
      rw [hread] at h
      cases h
      exact hfits

theorem Request.fits_ofMessage {m : Can.Message} {r : Request} (h : ofMessage m = .ok r) :
    r.Fits :=
  fits_of_decode (fun _ => ofPayload_unknown) (fun _ => ofPayload_known) h

theorem Response.fits_ofMessage {m : Can.Message} {r : Response} (h : ofMessage m = .ok r) :
    r.Fits :=
  fits_of_decode (fun _ => ofPayload_unknown) (fun _ => ofPayload_known) h

theorem BlockSegment.fits_ofMessage {m : Can.Message} {s : BlockSegment}
    (h : ofMessage m = .ok s) : s.Fits := by
  unfold ofMessage at h
  cases hframe : Frame.decodeBlockSegment m with
  | error e =>
    rw [hframe] at h
    cases h
  | ok frame =>
    rw [hframe] at h
    cases h
    exact toNat_and_le _ 0x7f

/-- Each kind of message has a format, over all bytes and all messages of the kind. -/
theorem messages_read_back :
    Format Request.parse Request.toBytes Request.Fits Request.unknown ∧
      Format Response.parse Response.toBytes Response.Fits Response.unknown ∧
      Format BlockSegment.parse BlockSegment.toBytes BlockSegment.Fits BlockSegment.unknown :=
  ⟨Request.format, Response.format, BlockSegment.format⟩

end Sdo
end Canopen
