import Canopen.Proofs.FrameContents
import Canopen.Proofs.Reading

set_option autoImplicit false

namespace Canopen.Sdo

open Can (Message)

/-- What a message is checked for before it is taken for a frame. -/
inductive Check where
  | length
  | standardId
  | channel
  | node
  | command
  deriving DecidableEq, Repr

def Party.ofMessage (m : Message) : Party :=
  if m.id.raw.toNat / 128 % 16 = 12 then .client else .server

namespace Check

def Passes (m : Message) : Check → Prop
  | length => m.dlc = 8
  | standardId => m.id.isExtended = false
  | channel => m.id.raw.toNat / 128 % 16 = 11 ∨ m.id.raw.toNat / 128 % 16 = 12
  | node => m.id.raw.toNat % 128 ≠ 0
  | command => (m.data.get 0).toNat / 32 ≠ 7

instance (m : Message) : (c : Check) → Decidable (c.Passes m)
  | length => inferInstanceAs (Decidable (m.dlc = 8))
  | standardId => inferInstanceAs (Decidable (m.id.isExtended = false))
  | channel => inferInstanceAs (Decidable (_ ∨ _))
  | node => inferInstanceAs (Decidable (m.id.raw.toNat % 128 ≠ 0))
  | command => inferInstanceAs (Decidable ((m.data.get 0).toNat / 32 ≠ 7))

def error (m : Message) : Check → ParseError
  | length => .malformedLength m.dlc
  | standardId => .extendedId m.id.raw
  | channel => .notSdo (UInt8.ofNat (m.id.raw.toNat / 128 % 16))
  | node => .invalidNodeId (UInt8.ofNat (m.id.raw.toNat % 128))
  | command => .unknownCommandSpecifier (m.data.get 0)

def ofSegment : List Check := [length, standardId, channel, node]

def ofFrame : List Check := ofSegment ++ [command]

def firstError? (checks : List Check) (m : Message) : Option ParseError :=
  (checks.find? fun c => ¬c.Passes m).map (·.error m)

variable {checks : List Check} {m : Message}

theorem firstError?_eq_none_iff : firstError? checks m = none ↔ ∀ c ∈ checks, c.Passes m := by
  simp [firstError?]

theorem firstError?_cons (c : Check) :
    firstError? (c :: checks) m
      = if c.Passes m then firstError? checks m else some (c.error m) := by
  rw [firstError?, List.find?_cons]
  by_cases h : c.Passes m <;> simp [firstError?, h]

theorem firstError?_append (more : List Check) :
    firstError? (checks ++ more) m = (firstError? checks m).or (firstError? more m) := by
  simp only [firstError?, List.find?_append, Option.map_or]

end Check

/-- How many of the eight bytes a command of `sender` uses. All others mean nothing. -/
def Command.used (sender : Party) (command : UInt8) : Nat :=
  let n := command.toNat
  match sender, n / 32 with
  -- A segment tells how many of its seven bytes are unused.
  | .client, 0 | .server, 0 => 8 - n / 2 % 8
  -- The start of a transfer carries a value of up to four bytes, or a size that may be left out.
  | .client, 1 | .server, 2 =>
    if n / 2 % 2 = 1 then if n % 2 = 1 then 8 - n / 4 % 4 else 8
    else if n % 2 = 1 then 8 else 4
  -- An object is named.
  | .client, 2 | .server, 3 => 4
  -- Nothing but a toggle bit.
  | .client, 3 | .server, 1 => 1
  | _, _ => 8

/-- A message on the same ID, of the same length, with the same first bytes and no others. -/
structure Trims (m m' : Message) (used : Nat) : Prop where
  id : m'.id = m.id
  dlc : m'.dlc = m.dlc
  rtr : m'.rtr = m.rtr
  kept : ∀ i : Fin 8, i < used → m'.data.get i = m.data.get i
  cleared : ∀ i : Fin 8, used ≤ i → m'.data.get i = 0

theorem decided_of_reason {ε α : Type} {x : Except ε α} {reason : Option ε}
    (herror : ∀ e, reason = some e → x = .error e) (hok : reason = none → ∃ a, x = .ok a) :
    ((∃ a, x = .ok a) ↔ reason = none) ∧ ∀ e, x = .error e ↔ reason = some e := by
  cases reason with
  | none =>
    obtain ⟨a, rfl⟩ := hok rfl
    simp
  | some e =>
    obtain rfl := herror e rfl
    simp

theorem Trims.eq_of_whole {m m' : Message} (h : Trims m m' 8) : m' = m := by
  have hdata : m'.data = m.data := Vector.ext fun i hi => h.kept ⟨i, hi⟩ hi
  obtain ⟨id, data, dlc, rtr⟩ := m'
  rw [show id = m.id from h.id, show dlc = m.dlc from h.dlc, show rtr = m.rtr from h.rtr,
    show data = m.data from hdata]

namespace Frame

theorem functionCode_of_std (id : UInt16) :
    (id >>> 7 &&& 0xF).toUInt8 = UInt8.ofNat (id.toNat / 128 % 16) := by
  apply UInt8.toNat_inj.mp
  have hmask : id.toNat >>> 7 &&& 15 = id.toNat / 128 % 16 := by
    rw [Nat.shiftRight_eq_div_pow]
    exact Nat.and_two_pow_sub_one_eq_mod _ 4
  rw [UInt16.toNat_toUInt8, UInt16.toNat_and, UInt16.toNat_shiftRight, UInt8.toNat_ofNat']
  exact congrArg (· % 256) hmask

theorem node_of_std (id : UInt16) : (id &&& 0x7F).toUInt8 = UInt8.ofNat (id.toNat % 128) := by
  apply UInt8.toNat_inj.mp
  rw [UInt16.toNat_toUInt8, UInt16.toNat_and, UInt8.toNat_ofNat']
  exact congrArg (· % 256) (Nat.and_two_pow_sub_one_eq_mod _ 7)

theorem std_of_parts {id : UInt16} (h : id.toNat ≤ 0x7FF) :
    (UInt8.ofNat (id.toNat / 128 % 16)).toUInt16 <<< 7
      ||| (UInt8.ofNat (id.toNat % 128)).toUInt16 = id := by
  apply UInt16.toNat_inj.mp
  have hcode : (UInt8.ofNat (id.toNat / 128 % 16)).toNat = id.toNat / 128 := by
    rw [UInt8.toNat_ofNat']
    omega
  have hnode : (UInt8.ofNat (id.toNat % 128)).toNat = id.toNat % 128 := by
    rw [UInt8.toNat_ofNat']
    omega
  have hshift : (id.toNat / 128) <<< 7 % 2 ^ 16 = (id.toNat / 128) <<< 7 := by
    rw [Nat.shiftLeft_eq]
    omega
  rw [UInt16.toNat_or, UInt16.toNat_shiftLeft, UInt8.toNat_toUInt16, UInt8.toNat_toUInt16, hcode,
    hnode]
  show (id.toNat / 128) <<< 7 % 2 ^ 16 ||| id.toNat % 128 = id.toNat
  rw [hshift, ← Nat.shiftLeft_add_eq_or_of_lt (Nat.mod_lt _ (by decide)), Nat.shiftLeft_eq]
  omega

theorem meaningful_eq_used {sender : Party} {command : UInt8} {t : TransferType}
    (h : TransferType.ofCommand? sender command = some t) :
    t.meaningful (t.dataLength sender command) = Command.used sender command := by
  have all : ∀ n < 256, ∀ t ∈ TransferType.ofCommand? sender (UInt8.ofNat n),
      t.meaningful (t.dataLength sender (UInt8.ofNat n))
        = Command.used sender (UInt8.ofNat n) := by
    cases sender <;> decide +kernel
  have hcommand := all command.toNat command.toNat_lt
  rw [UInt8.ofNat_toNat] at hcommand
  exact hcommand t h

theorem ofFunctionCode?_ofNat {k : Nat} (h : k < 16) : Party.ofFunctionCode? (UInt8.ofNat k)
    = if k = 12 then some .client else if k = 11 then some .server else none := by
  have all : ∀ k < 16, Party.ofFunctionCode? (UInt8.ofNat k)
      = if k = 12 then some .client else if k = 11 then some .server else none := by
    decide
  exact all k h

variable {m : Message}

theorem route_of_std (hlength : Check.length.Passes m) (hstd : Check.standardId.Passes m) :
    route m = match Party.ofFunctionCode? (UInt8.ofNat (m.id.raw.toNat / 128 % 16)),
        NodeId.ofByte? (UInt8.ofNat (m.id.raw.toNat % 128)) with
      | none, _ => .error (Check.channel.error m)
      | some _, none => .error (Check.node.error m)
      | some sender, some node => .ok (sender, node) := by
  obtain ⟨id, data, dlc, rtr⟩ := m
  have hdlc : dlc = 8 := hlength
  cases id with
  | extended id => cases hstd
  | std id =>
    have hraw : (Can.Id.std id).raw.toNat = id.toNat := UInt16.toNat_toUInt32 id
    have hcode := functionCode_of_std id
    have hnode := node_of_std id
    rw [← hraw] at hcode hnode
    refine Eq.trans (if_pos hdlc) ?_
    dsimp only [Check.error]
    generalize (id >>> 7 &&& 0xF).toUInt8 = code at hcode ⊢
    generalize (id &&& 0x7F).toUInt8 = value at hnode ⊢
    subst hcode hnode
    cases Party.ofFunctionCode? _ with
    | none => rfl
    | some sender => cases NodeId.ofByte? _ <;> rfl

theorem route_of_error {e : ParseError} (h : Check.firstError? Check.ofSegment m = some e) :
    route m = .error e := by
  simp only [Check.ofSegment, Check.firstError?_cons] at h
  -- One check after the other, as the first that fails gives the error.
  by_cases hlength : Check.length.Passes m
  case neg =>
    rw [if_neg hlength] at h
    cases h
    exact route_of_dlc hlength
  rw [if_pos hlength] at h
  by_cases hstd : Check.standardId.Passes m
  case neg =>
    rw [if_neg hstd] at h
    cases h
    obtain ⟨id, data, dlc, rtr⟩ := m
    cases id with
    | std id => exact absurd rfl hstd
    | extended id => exact if_pos hlength
  rw [if_pos hstd] at h
  rw [route_of_std hlength hstd]
  have hcode : m.id.raw.toNat / 128 % 16 < 16 := Nat.mod_lt _ (by decide)
  by_cases hchannel : Check.channel.Passes m
  case neg =>
    obtain ⟨h11, h12⟩ := not_or.mp hchannel
    rw [if_neg hchannel] at h
    cases h
    rw [ofFunctionCode?_ofNat hcode, if_neg h12, if_neg h11]
  rw [if_pos hchannel] at h
  by_cases hnode : Check.node.Passes m
  case neg =>
    rw [if_neg hnode] at h
    cases h
    have hzero : m.id.raw.toNat % 128 = 0 := Decidable.not_not.mp hnode
    have hnone : NodeId.ofByte? (UInt8.ofNat (m.id.raw.toNat % 128)) = none := by
      rw [hzero]
      rfl
    rw [hnone, ofFunctionCode?_ofNat hcode]
    rcases hchannel with h11 | h12
    · rw [h11]
      rfl
    · rw [h12]
      rfl
  rw [if_pos hnode] at h
  cases h

theorem route_of_passes (h : Check.firstError? Check.ofSegment m = none) :
    ∃ node : NodeId, node.value = UInt8.ofNat (m.id.raw.toNat % 128) ∧
      route m = .ok (Party.ofMessage m, node) := by
  have hpasses := Check.firstError?_eq_none_iff.mp h
  have hlength : Check.length.Passes m := hpasses _ (by decide)
  have hstd : Check.standardId.Passes m := hpasses _ (by decide)
  have hchannel : Check.channel.Passes m := hpasses _ (by decide)
  have hnode : Check.node.Passes m := hpasses _ (by decide)
  have hvalue : (UInt8.ofNat (m.id.raw.toNat % 128)).toNat = m.id.raw.toNat % 128 := by
    rw [UInt8.toNat_ofNat']
    omega
  have hpos : 0 < (UInt8.ofNat (m.id.raw.toNat % 128)).toNat := by
    rw [hvalue]
    exact Nat.pos_of_ne_zero hnode
  have hlt : (UInt8.ofNat (m.id.raw.toNat % 128)).toNat < 128 := by
    rw [hvalue]
    exact Nat.mod_lt _ (by decide)
  refine ⟨⟨_, hpos, hlt⟩, rfl, ?_⟩
  have hbyte : NodeId.ofByte? (UInt8.ofNat (m.id.raw.toNat % 128)) = some ⟨_, hpos, hlt⟩ :=
    dif_pos ⟨hpos, hlt⟩
  rw [route_of_std hlength hstd, hbyte, ofFunctionCode?_ofNat (Nat.mod_lt _ (by decide)),
    Party.ofMessage]
  rcases hchannel with h11 | h12
  · rw [h11]
    rfl
  · rw [h12]
    rfl

theorem ofCommand?_eq_none_iff (sender : Party) (command : UInt8) :
    TransferType.ofCommand? sender command = none ↔ Command.vacant command = true := by
  cases sender
  · rw [TransferType.ofCommand?, Option.map_eq_none_iff, ClientCommand.ofSpecifier?_eq_none_iff]
  · rw [TransferType.ofCommand?, Option.map_eq_none_iff, ServerCommand.ofSpecifier?_eq_none_iff]

theorem passes_command_iff : Check.command.Passes m ↔ Command.vacant (m.data.get 0) = false := by
  rw [Check.Passes, Command.vacant, decide_eq_false_iff_not]

theorem decode_of_error {e : ParseError} (h : Check.firstError? Check.ofFrame m = some e) :
    decode m = .error e := by
  rw [Check.ofFrame, Check.firstError?_append] at h
  cases hsegment : Check.firstError? Check.ofSegment m with
  | some e' =>
    rw [hsegment] at h
    cases h
    rw [decode, route_of_error hsegment]
    rfl
  | none =>
    rw [hsegment, Option.none_or, Check.firstError?_cons] at h
    by_cases hcommand : Check.command.Passes m
    case pos =>
      rw [if_pos hcommand] at h
      cases h
    rw [if_neg hcommand] at h
    cases h
    obtain ⟨node, -, hroute⟩ := route_of_passes hsegment
    have hvacant : Command.vacant (m.data.get 0) = true := by
      rw [passes_command_iff, Bool.not_eq_false] at hcommand
      exact hcommand
    rw [decode_of_route hroute, (ofCommand?_eq_none_iff _ _).mpr hvacant]
    rfl

theorem passes_of_ofFrame (h : Check.firstError? Check.ofFrame m = none) :
    Check.firstError? Check.ofSegment m = none :=
  Check.firstError?_eq_none_iff.mpr fun c hc =>
    Check.firstError?_eq_none_iff.mp h c (List.mem_append_left _ hc)

theorem decode_of_passes (h : Check.firstError? Check.ofFrame m = none) :
    ∃ (node : NodeId) (t : TransferType), node.value = UInt8.ofNat (m.id.raw.toNat % 128) ∧
      TransferType.ofCommand? (Party.ofMessage m) (m.data.get 0) = some t ∧
      decode m = .ok { build (Party.ofMessage m) node t m.data with rtr := m.rtr } := by
  have hpasses : Check.command.Passes m := Check.firstError?_eq_none_iff.mp h _ (by decide)
  obtain ⟨node, hnode, hroute⟩ := route_of_passes (passes_of_ofFrame h)
  have hsome : TransferType.ofCommand? (Party.ofMessage m) (m.data.get 0) ≠ none := by
    rw [Ne, ofCommand?_eq_none_iff, passes_command_iff.mp hpasses]
    decide
  obtain ⟨t, ht⟩ := Option.ne_none_iff_exists'.mp hsome
  refine ⟨node, t, hnode, ht, ?_⟩
  rw [decode_of_route hroute, ht]

theorem decodeBlockSegment_of_error {e : ParseError}
    (h : Check.firstError? Check.ofSegment m = some e) : decodeBlockSegment m = .error e := by
  rw [decodeBlockSegment, route_of_error h]
  rfl

theorem decodeBlockSegment_of_passes (h : Check.firstError? Check.ofSegment m = none) :
    ∃ node : NodeId, node.value = UInt8.ofNat (m.id.raw.toNat % 128) ∧ decodeBlockSegment m
      = .ok { build (Party.ofMessage m) node .blockSegment m.data with rtr := m.rtr } := by
  obtain ⟨node, hnode, hroute⟩ := route_of_passes h
  exact ⟨node, hnode, decodeBlockSegment_of_route hroute⟩

theorem id_of_passes {node : NodeId} {f : Frame}
    (hpasses : Check.firstError? Check.ofSegment m = none)
    (hnode : node.value = UInt8.ofNat (m.id.raw.toNat % 128)) (hid : m.id.raw.toNat ≤ 0x7FF)
    (hcode : f.functionCode = (Party.ofMessage m).functionCode) (hfnode : f.node = node) :
    f.id = m.id := by
  have hall := Check.firstError?_eq_none_iff.mp hpasses
  have hstd : Check.standardId.Passes m := hall _ (by decide)
  have hchannel : Check.channel.Passes m := hall _ (by decide)
  have hparty : (Party.ofMessage m).functionCode = UInt8.ofNat (m.id.raw.toNat / 128 % 16) := by
    rcases hchannel with h11 | h12
    · rw [Party.ofMessage, h11]
      rfl
    · rw [Party.ofMessage, h12]
      rfl
  obtain ⟨id, data, dlc, rtr⟩ := m
  cases id with
  | extended id => cases hstd
  | std id =>
    have hraw : (Can.Id.std id).raw.toNat = id.toNat := UInt16.toNat_toUInt32 id
    simp only [hraw] at hid hnode hparty
    rw [Frame.id, hcode, hfnode, hparty, hnode, std_of_parts hid]

theorem trims_build {node : NodeId} {t : TransferType}
    (hpasses : Check.firstError? Check.ofSegment m = none)
    (hnode : node.value = UInt8.ofNat (m.id.raw.toNat % 128)) (hid : m.id.raw.toNat ≤ 0x7FF) :
    Trims m { build (Party.ofMessage m) node t m.data with rtr := m.rtr }.encode
      (t.meaningful (t.dataLength (Party.ofMessage m) (m.data.get 0))) where
  id := id_of_passes hpasses hnode hid rfl rfl
  dlc := (Check.firstError?_eq_none_iff.mp hpasses .length (by decide)).symm
  rtr := rfl
  kept i hi := m.data.get_clearFrom hi
  cleared i hi := (m.data.getElem_clearFrom _ i i.isLt).trans (if_neg (Nat.not_lt.mpr hi))

theorem decode_decided : ((∃ f, decode m = .ok f) ↔ Check.firstError? Check.ofFrame m = none) ∧
    ∀ e, decode m = .error e ↔ Check.firstError? Check.ofFrame m = some e := by
  refine decided_of_reason (fun _ => decode_of_error) fun h => ?_
  obtain ⟨node, t, -, -, hdecode⟩ := decode_of_passes h
  exact ⟨_, hdecode⟩

theorem decodeBlockSegment_decided :
    ((∃ f, decodeBlockSegment m = .ok f) ↔ Check.firstError? Check.ofSegment m = none) ∧
    ∀ e, decodeBlockSegment m = .error e ↔ Check.firstError? Check.ofSegment m = some e := by
  refine decided_of_reason (fun _ => decodeBlockSegment_of_error) fun h => ?_
  obtain ⟨node, -, hdecode⟩ := decodeBlockSegment_of_passes h
  exact ⟨_, hdecode⟩

/-- Messages are framed exactly when they pass the checks, which are made in their order. The frame
of a message on an ID of eleven bits is sent as that message, without the bytes that its command
does not use, and is framed in the same way again. -/
theorem decode_accepts_exactly (m : Message) :
    ((∃ f, decode m = .ok f) ↔ ∀ c ∈ Check.ofFrame, c.Passes m) ∧
    ((∃ f, decodeBlockSegment m = .ok f) ↔ ∀ c ∈ Check.ofSegment, c.Passes m) ∧
    (∀ e, decode m = .error e ↔ Check.firstError? Check.ofFrame m = some e) ∧
    (∀ e, decodeBlockSegment m = .error e ↔ Check.firstError? Check.ofSegment m = some e) ∧
    (∀ f, decode m = .ok f → decode f.encode = .ok f ∧ (m.id.raw.toNat ≤ 0x7FF →
      Trims m f.encode (Command.used (Party.ofMessage m) (m.data.get 0)))) ∧
    ∀ f, decodeBlockSegment m = .ok f → decodeBlockSegment f.encode = .ok f ∧
      (m.id.raw.toNat ≤ 0x7FF → f.encode = m) := by
  refine ⟨decode_decided.1.trans Check.firstError?_eq_none_iff,
    decodeBlockSegment_decided.1.trans Check.firstError?_eq_none_iff, decode_decided.2,
    decodeBlockSegment_decided.2, fun f h => ?_, fun f h => ?_⟩
  · refine ⟨(canonical_of_decode h).decode_encode, fun hid => ?_⟩
    have hpasses := decode_decided.1.mp ⟨f, h⟩
    obtain ⟨node, t, hnode, ht, hdecode⟩ := decode_of_passes hpasses
    obtain rfl := Except.ok.inj (h.symm.trans hdecode)
    rw [← meaningful_eq_used ht]
    exact trims_build (passes_of_ofFrame hpasses) hnode hid
  · refine ⟨(canonical_of_decodeBlockSegment h).decodeBlockSegment_encode, fun hid => ?_⟩
    have hpasses := decodeBlockSegment_decided.1.mp ⟨f, h⟩
    obtain ⟨node, hnode, hdecode⟩ := decodeBlockSegment_of_passes hpasses
    obtain rfl := Except.ok.inj (h.symm.trans hdecode)
    exact (trims_build hpasses hnode hid).eq_of_whole

end Frame

end Canopen.Sdo
