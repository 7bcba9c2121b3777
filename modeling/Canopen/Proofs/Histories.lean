import Canopen.Proofs.Framing
import Canopen.Server

/-!
What messages and answers tell of the downloads to a server, with no look at its state: which one
is under way, what has been collected for it, and when it is complete.
-/

set_option autoImplicit false

namespace Canopen.Server

open Can (Message)
open Sdo

/-- What comes to a server: a message, or other settings. -/
inductive Event where
  | message (m : Message)
  | settings (blockSize : UInt8) (crc : Bool) (faults : Faults)

structure Arrival where
  faults : Faults
  message : Message

structure Exchange extends Arrival where
  answers : List Message

def exchange (s : Server) (m : Message) : Exchange :=
  { faults := s.faults, message := m, answers := (s.handle m).frames }

def meet (s : Server) : Event → Server
  | .message m => (s.handle m).device
  | .settings blockSize crc faults => { s with blockSize, crc, faults }

def exchanges (s : Server) : Event → List Exchange
  | .message m => [s.exchange m]
  | .settings .. => []

def after (s : Server) (events : List Event) : Server := events.foldl meet s

def past (s : Server) : List Event → List Exchange
  | [] => []
  | e :: rest => s.exchanges e ++ (s.meet e).past rest

/-- What is still to come of a download. -/
inductive Phase where
  | segments (toggle : Bool)
  /-- Segments of blocks. So many of the block under way count. -/
  | blocks (crc : Bool) (count : Nat)
  | ending (crc : Bool)

structure Download where
  target : Address
  size : Option Nat
  taken : List UInt8
  phase : Phase

namespace Arrival

variable (node : NodeId) (a : Arrival)

def Heard : Prop :=
  a.message.id = node.requestId ∧ a.faults.silent = false ∧ a.faults.ignoreNext = 0

def Asks (r : Request) : Prop := a.Heard node ∧ Request.ofMessage a.message = .ok r

/-- Within a block all but an abort is a segment. One that gets lost does not count. -/
def Brings (segment : BlockSegment) : Prop :=
  a.Heard node ∧ a.message.data.get 0 ≠ 0x80 ∧ BlockSegment.ofMessage a.message = .ok segment ∧
    a.faults.loseDownloadSegment ≠ some segment.seqno

def Aborts : Prop := ∃ target code, a.Asks node (.abort target code)

/-- Matters to a download even if it is not answered. -/
def Matters : Phase → Prop
  | .blocks .. => a.Aborts node ∧ a.message.data.get 0 = 0x80 ∨ ∃ segment, a.Brings node segment
  | _ => a.Aborts node

end Arrival

/-- The end of a download, as it is asked for and confirmed. -/
inductive Concludes : Request → Response → Prop
  | expedited {unused : UInt8} {sized : Bool} {target named : Address} {data : Vector UInt8 4} :
    Concludes (.initiateDownload unused true sized target data) (.confirmDownload named)
  | segments {toggle ack : Bool} {unused : UInt8} {data : Vector UInt8 7} :
    Concludes (.downloadSegment toggle unused true data) (.confirmDownloadSegment ack)
  | blocks {unused : UInt8} {checksum : UInt16} :
    Concludes (.endBlockDownload unused checksum) .confirmBlockDownloadEnd

namespace Exchange

variable (node : NodeId) (x : Exchange)

def Answers (r : Response) : Prop := x.answers = [r.message node]

def Completes : Prop := ∃ ask r, x.Asks node ask ∧ x.Answers node r ∧ Concludes ask r

/-- A download is started: where to, how much is declared, and what comes first. -/
inductive Opens : Address → Option Nat → Phase → Prop
  | segments {unused : UInt8} {sized : Bool} {target : Address} {data : Vector UInt8 4}
    (asks : x.Asks node (.initiateDownload unused false sized target data))
    (answers : x.Answers node (.confirmDownload target)) :
    Opens target (if sized then some (wordOf data).toNat else none) (.segments false)
  | blocks {clientCrc serverCrc sized : Bool} {target : Address} {size : UInt32} {blockSize : UInt8}
    (asks : x.Asks node (.initiateBlockDownload clientCrc sized target size))
    (answers : x.Answers node (.confirmBlockDownload serverCrc target blockSize)) :
    Opens target (if sized then some size.toNat else none) (.blocks (clientCrc && serverCrc) 0)

/-- How many segments of a block count, before and after the answer: when a block is acknowledged
that is full, the next one begins. -/
inductive Counts (n : Nat) : Nat → Prop
  | unanswered (silent : x.answers = []) : Counts n n
  | part {seqno blockSize : UInt8} (answers : x.Answers node (.confirmBlock seqno blockSize))
    (count : seqno.toNat = n) (goes : seqno ≠ blockSize) : Counts n n
  | full {seqno : UInt8} (answers : x.Answers node (.confirmBlock seqno seqno))
    (count : seqno.toNat = n) : Counts n 0

/-- What an exchange adds to a download that goes on with it. -/
inductive Adds : Phase → List UInt8 → Phase → Prop
  | segment {toggle ack : Bool} {unused : UInt8} {data : Vector UInt8 7}
    (asks : x.Asks node (.downloadSegment toggle unused false data))
    (answers : x.Answers node (.confirmDownloadSegment ack)) :
    Adds (.segments toggle) (data.toList.take (7 - unused.toNat)) (.segments !toggle)
  /-- All bytes. Which of them are in use is known only at the end. -/
  | inOrder {crc : Bool} {count n : Nat} {segment : BlockSegment}
    (brings : x.Brings node segment) (next : segment.seqno.toNat = count + 1)
    (goes : segment.last = false) (counts : x.Counts node (count + 1) n) :
    Adds (.blocks crc count) segment.data.toList (.blocks crc n)
  | last {crc : Bool} {count : Nat} {segment : BlockSegment} {blockSize : UInt8}
    (brings : x.Brings node segment) (next : segment.seqno.toNat = count + 1)
    (ends : segment.last = true)
    (answers : x.Answers node (.confirmBlock segment.seqno blockSize)) :
    Adds (.blocks crc count) segment.data.toList (.ending crc)
  /-- Nothing, even if it was sent before and is the same. -/
  | outOfOrder {crc : Bool} {count n : Nat} {segment : BlockSegment}
    (brings : x.Brings node segment) (other : segment.seqno.toNat ≠ count + 1)
    (counts : x.Counts node count n) : Adds (.blocks crc count) [] (.blocks crc n)
  | silence {phase : Phase} (silent : x.answers = []) (ignored : ¬x.Matters node phase) :
    Adds phase [] phase

end Exchange

/-- What all these exchanges add. -/
inductive Collects (node : NodeId) : Phase → List Exchange → List UInt8 → Phase → Prop
  | nil {phase : Phase} : Collects node phase [] [] phase
  | cons {x : Exchange} {rest : List Exchange} {bytes more : List UInt8}
    {first second phase : Phase} (adds : x.Adds node first bytes second)
    (h : Collects node second rest more phase) :
    Collects node first (x :: rest) (bytes ++ more) phase

/-- A download was started, and since then nothing ended it. -/
inductive UnderWay (node : NodeId) (past : List Exchange) (d : Download) : Prop
  | intro {earlier since : List Exchange} {x : Exchange} {first : Phase}
    (split : past = earlier ++ x :: since) (opens : x.Opens node d.target d.size first)
    (collects : Collects node first since d.taken d.phase)

/-- An exchange stores an object: all of an expedited download, or what a download collected before,
with what the end adds to that or drops of it. -/
inductive Stores (node : NodeId) (past : List Exchange) (x : Exchange) :
    Address → List UInt8 → Prop
  | expedited {target named : Address} {sized : Bool} {object : List UInt8} {unused : UInt8}
    {data : Vector UInt8 4}
    (asks : x.Asks node (.initiateDownload unused true sized target data))
    (answers : x.Answers node (.confirmDownload named))
    (whole : object = data.toList.take (if sized then 4 - unused.toNat else 4))
    (length : object.length = if sized then 4 - unused.toNat else 4) :
    Stores node past x target object
  | segments {target : Address} {size : Option Nat} {taken object : List UInt8} {toggle ack : Bool}
    {unused : UInt8} {data : Vector UInt8 7}
    (underWay : UnderWay node past { target, size, taken, phase := .segments toggle })
    (asks : x.Asks node (.downloadSegment toggle unused true data))
    (answers : x.Answers node (.confirmDownloadSegment ack))
    (whole : object = taken ++ data.toList.take (7 - unused.toNat))
    (sized : ∀ n, size = some n → object.length = n) : Stores node past x target object
  | blocks {target : Address} {size : Option Nat} {taken object : List UInt8} {crc : Bool}
    {unused : UInt8} {checksum : UInt16}
    (underWay : UnderWay node past { target, size, taken, phase := .ending crc })
    (asks : x.Asks node (.endBlockDownload unused checksum))
    (answers : x.Answers node .confirmBlockDownloadEnd)
    (whole : object = taken.take (taken.length - unused.toNat))
    (sized : ∀ n, size = some n → object.length = n)
    (checked : crc = true → Canopen.crc object = checksum) : Stores node past x target object

theorem Collects.snoc {node : NodeId} {first phase phase' : Phase} {since : List Exchange}
    {x : Exchange} {taken bytes : List UInt8} (h : Collects node first since taken phase)
    (adds : x.Adds node phase bytes phase') :
    Collects node first (since ++ [x]) (taken ++ bytes) phase' := by
  induction h with
  | nil =>
    have hone := Collects.cons adds .nil
    rwa [List.append_nil] at hone
  | cons adds' _ ih =>
    rw [List.append_assoc]
    exact .cons adds' (ih adds)

theorem UnderWay.opened {node : NodeId} {past : List Exchange} {x : Exchange} {target : Address}
    {size : Option Nat} {phase : Phase} (h : x.Opens node target size phase) :
    UnderWay node (past ++ [x]) { target, size, taken := [], phase } :=
  .intro rfl h .nil

theorem UnderWay.extend {node : NodeId} {past : List Exchange} {x : Exchange} {d : Download}
    {bytes : List UInt8} {phase : Phase} (h : UnderWay node past d)
    (adds : x.Adds node d.phase bytes phase) :
    UnderWay node (past ++ [x]) { d with taken := d.taken ++ bytes, phase } := by
  obtain ⟨rfl, opens, collects⟩ := h
  rw [List.append_assoc, List.cons_append]
  exact .intro rfl opens (collects.snoc adds)

/-! ### What completes a download -/

section
variable {node : NodeId} {x : Exchange}

theorem Arrival.Asks.unique {a : Arrival} {r r' : Request} (h : a.Asks node r)
    (h' : a.Asks node r') : r = r' :=
  Except.ok.inj (h.2.symm.trans h'.2)

theorem Arrival.Brings.unique {a : Arrival} {segment segment' : BlockSegment}
    (h : a.Brings node segment) (h' : a.Brings node segment') : segment = segment' :=
  Except.ok.inj (h.2.2.1.symm.trans h'.2.2.1)

theorem Exchange.Answers.speaks {r : Response} (h : x.Answers node r) : x.answers ≠ [] := by
  rw [show x.answers = [r.message node] from h]
  exact List.cons_ne_nil _ _

theorem Exchange.Answers.unique {r r' : Response} (h : x.Answers node r) (h' : x.Answers node r')
    (hfits : r.Fits) (htidy : r.Tidy) (hfits' : r'.Fits) (htidy' : r'.Tidy) : r = r' := by
  have hmessage : r.message node = r'.message node := List.singleton_inj.mp (h.symm.trans h')
  have hread := Response.ofMessage_message node hfits htidy
  rw [hmessage, Response.ofMessage_message node hfits' htidy'] at hread
  exact (Except.ok.inj hread).symm

theorem Concludes.regular {ask : Request} {r : Response} (h : Concludes ask r) : r.Regular := by
  cases h with
  | expedited => exact .of_plain trivial
  | segments => exact .of_plain trivial
  | blocks => exact .of_plain trivial

theorem Concludes.goes {ask : Request} {r : Response} (h : Concludes ask r) :
    ask.kind ≠ .abort := by
  cases h <;> simp [Request.kind]

theorem Exchange.not_completes_of_silent (h : x.answers = []) : ¬x.Completes node := by
  rintro ⟨ask, r, -, hanswers, -⟩
  exact hanswers.speaks h

theorem Exchange.not_completes_of_asks {ask : Request} (h : x.Asks node ask)
    (hno : ∀ r, ¬Concludes ask r) : ¬x.Completes node := by
  rintro ⟨ask', r, hasks, -, hconcludes⟩
  cases h.unique hasks
  exact hno r hconcludes

theorem Exchange.not_completes_of_answers {r : Response} (h : x.Answers node r) (hfits : r.Fits)
    (htidy : r.Tidy) (hno : ∀ ask, ¬Concludes ask r) : ¬x.Completes node := by
  rintro ⟨ask, r', -, hanswers, hconcludes⟩
  have hregular := hconcludes.regular
  cases h.unique hanswers hfits htidy hregular.fits hregular.tidy
  exact hno ask hconcludes

theorem Stores.completes {past : List Exchange} {target : Address} {object : List UInt8}
    (h : Stores node past x target object) : x.Completes node := by
  cases h with
  | expedited asks answers => exact ⟨_, _, asks, answers, .expedited⟩
  | segments _ asks answers => exact ⟨_, _, asks, answers, .segments⟩
  | blocks _ asks answers => exact ⟨_, _, asks, answers, .blocks⟩

theorem Exchange.Completes.speaks (h : x.Completes node) :
    x.answers ≠ [] ∧ (∀ target code, (Response.abort target code).message node ∉ x.answers) ∧
      ∀ target code, Request.ofMessage x.message ≠ .ok (.abort target code) := by
  obtain ⟨ask, r, hasks, hanswers, hconcludes⟩ := h
  have hregular := hconcludes.regular
  refine ⟨hanswers.speaks, fun target code hmem => ?_, fun target code hread => ?_⟩
  · rw [show x.answers = [r.message node] from hanswers] at hmem
    have habort : x.Answers node (.abort target code) := by
      rw [Exchange.Answers, List.mem_singleton.mp hmem]
      exact hanswers
    cases habort.unique hanswers trivial trivial hregular.fits hregular.tidy
    exact hregular.goes rfl
  · cases Except.ok.inj (hasks.2.symm.trans hread)
    exact hconcludes.goes rfl

/-! ### One download at most is under way -/

theorem Exchange.Answers.unique_plain {r r' : Response} (h : x.Answers node r)
    (h' : x.Answers node r') (hr : r.Plain) (hr' : r'.Plain) : r = r' :=
  have hregular := Response.Regular.of_plain hr
  have hregular' := Response.Regular.of_plain hr'
  h.unique h' hregular.fits hregular.tidy hregular'.fits hregular'.tidy

theorem Exchange.Counts.unique {n k k' : Nat} (h : x.Counts node n k) (h' : x.Counts node n k') :
    k = k' := by
  cases h with
  | unanswered silent =>
    cases h' with
    | unanswered => rfl
    | part => rfl
    | full answers => exact absurd silent answers.speaks
  | part answers _ goes =>
    cases h' with
    | unanswered => rfl
    | part => rfl
    | full answers' =>
      cases answers.unique_plain answers' trivial trivial
      exact absurd rfl goes
  | full answers =>
    cases h' with
    | unanswered silent => exact absurd silent answers.speaks
    | part answers' _ goes =>
      cases answers.unique_plain answers' trivial trivial
      exact absurd rfl goes
    | full => rfl

theorem Exchange.Adds.unique {first second second' : Phase} {bytes bytes' : List UInt8}
    (h : x.Adds node first bytes second) (h' : x.Adds node first bytes' second') :
    bytes = bytes' ∧ second = second' := by
  cases h with
  | segment asks answers =>
    cases h' with
    | segment asks' =>
      cases asks.unique asks'
      exact ⟨rfl, rfl⟩
    | silence silent => exact absurd silent answers.speaks
  | inOrder brings next goes counts =>
    cases h' with
    | inOrder brings' _ _ counts' =>
      cases brings.unique brings'
      cases counts.unique counts'
      exact ⟨rfl, rfl⟩
    | last brings' _ ends =>
      cases brings.unique brings'
      cases goes.symm.trans ends
    | outOfOrder brings' other =>
      cases brings.unique brings'
      exact absurd next other
    | silence _ ignored => exact absurd (.inr ⟨_, brings⟩) ignored
  | last brings next ends answers =>
    cases h' with
    | inOrder brings' _ goes =>
      cases brings.unique brings'
      cases goes.symm.trans ends
    | last brings' =>
      cases brings.unique brings'
      exact ⟨rfl, rfl⟩
    | outOfOrder brings' other =>
      cases brings.unique brings'
      exact absurd next other
    | silence silent => exact absurd silent answers.speaks
  | outOfOrder brings other counts =>
    cases h' with
    | inOrder brings' next =>
      cases brings.unique brings'
      exact absurd next other
    | last brings' next =>
      cases brings.unique brings'
      exact absurd next other
    | outOfOrder brings' _ counts' =>
      cases counts.unique counts'
      exact ⟨rfl, rfl⟩
    | silence _ ignored => exact absurd (.inr ⟨_, brings⟩) ignored
  | silence silent ignored =>
    cases h' with
    | segment _ answers => exact absurd silent answers.speaks
    | inOrder brings => exact absurd (.inr ⟨_, brings⟩) ignored
    | last _ _ _ answers => exact absurd silent answers.speaks
    | outOfOrder brings => exact absurd (.inr ⟨_, brings⟩) ignored
    | silence => exact ⟨rfl, rfl⟩

theorem Collects.unique {first : Phase} {since : List Exchange} {bytes bytes' : List UInt8}
    {phase phase' : Phase} (h : Collects node first since bytes phase)
    (h' : Collects node first since bytes' phase') : bytes = bytes' ∧ phase = phase' := by
  induction h generalizing bytes' phase' with
  | nil =>
    cases h'
    exact ⟨rfl, rfl⟩
  | cons adds _ ih =>
    cases h' with
    | cons adds' rest' =>
      obtain ⟨rfl, rfl⟩ := adds.unique adds'
      obtain ⟨rfl, rfl⟩ := ih rest'
      exact ⟨rfl, rfl⟩

theorem Exchange.Opens.unique {target target' : Address} {size size' : Option Nat}
    {first first' : Phase} (h : x.Opens node target size first)
    (h' : x.Opens node target' size' first') :
    target = target' ∧ size = size' ∧ first = first' := by
  cases h with
  | segments asks answers =>
    cases h' with
    | segments asks' =>
      cases asks.unique asks'
      exact ⟨rfl, rfl, rfl⟩
    | blocks asks' => cases asks.unique asks'
  | blocks asks answers =>
    cases h' with
    | segments asks' => cases asks.unique asks'
    | blocks asks' answers' =>
      cases asks.unique asks'
      cases answers.unique_plain answers' trivial trivial
      exact ⟨rfl, rfl, rfl⟩

def Acknowledges : Response → Prop
  | .confirmDownloadSegment _ | .confirmBlock .. => True
  | _ => False

theorem Exchange.Counts.acknowledged {n k : Nat} (h : x.Counts node n k) :
    x.answers = [] ∨ ∃ r, x.Answers node r ∧ r.Plain ∧ Acknowledges r := by
  cases h with
  | unanswered silent => exact .inl silent
  | part answers => exact .inr ⟨_, answers, trivial, trivial⟩
  | full answers => exact .inr ⟨_, answers, trivial, trivial⟩

theorem Exchange.Adds.acknowledged {first second : Phase} {bytes : List UInt8}
    (h : x.Adds node first bytes second) :
    x.answers = [] ∨ ∃ r, x.Answers node r ∧ r.Plain ∧ Acknowledges r := by
  cases h with
  | segment _ answers => exact .inr ⟨_, answers, trivial, trivial⟩
  | inOrder _ _ _ counts => exact counts.acknowledged
  | last _ _ _ answers => exact .inr ⟨_, answers, trivial, trivial⟩
  | outOfOrder _ _ counts => exact counts.acknowledged
  | silence silent => exact .inl silent

theorem Exchange.Opens.answered {target : Address} {size : Option Nat} {first : Phase}
    (h : x.Opens node target size first) :
    ∃ r, x.Answers node r ∧ r.Plain ∧ ¬Acknowledges r := by
  cases h with
  | segments _ answers => exact ⟨_, answers, trivial, id⟩
  | blocks _ answers => exact ⟨_, answers, trivial, id⟩

theorem Exchange.Opens.not_adds {target : Address} {size : Option Nat} {phase first second : Phase}
    {bytes : List UInt8} (h : x.Opens node target size phase) :
    ¬x.Adds node first bytes second := by
  intro hadds
  obtain ⟨r, hanswers, hplain, hopens⟩ := h.answered
  obtain hsilent | ⟨r', hanswers', hplain', hacknowledges⟩ := hadds.acknowledged
  · exact hanswers.speaks hsilent
  · cases hanswers.unique_plain hanswers' hplain hplain'
    exact hopens hacknowledges

theorem Collects.not_mem_of_opens {first phase phase' : Phase} {since : List Exchange}
    {bytes : List UInt8} {target : Address} {size : Option Nat}
    (h : Collects node first since bytes phase) (hopens : x.Opens node target size phase') :
    x ∉ since := by
  induction h with
  | nil => exact List.not_mem_nil
  | cons adds _ ih =>
    intro hmem
    obtain rfl | hmem := List.mem_cons.mp hmem
    · exact hopens.not_adds adds
    · exact ih hmem

theorem split_unique {earlier earlier' since since' : List Exchange} {x x' : Exchange}
    (h : earlier ++ x :: since = earlier' ++ x' :: since') (hx : x ∉ since') (hx' : x' ∉ since) :
    x = x' ∧ since = since' := by
  obtain ⟨between, -, hrest⟩ | ⟨between, -, hrest⟩ := List.append_eq_append_iff.mp h
  · cases between with
    | nil => exact List.cons.inj hrest
    | cons y between =>
      rw [(List.cons.inj hrest).2] at hx'
      exact absurd (List.mem_append_right _ List.mem_cons_self) hx'
  · cases between with
    | nil =>
      obtain ⟨hx, hsince⟩ := List.cons.inj hrest
      exact ⟨hx.symm, hsince.symm⟩
    | cons y between =>
      rw [(List.cons.inj hrest).2] at hx
      exact absurd (List.mem_append_right _ List.mem_cons_self) hx

theorem UnderWay.unique {past : List Exchange} {d d' : Download} (h : UnderWay node past d)
    (h' : UnderWay node past d') : d = d' := by
  obtain ⟨hsplit, hopens, hcollects⟩ := h
  obtain ⟨hsplit', hopens', hcollects'⟩ := h'
  -- Neither history has another start behind its own, so both begin with the same.
  obtain ⟨rfl, rfl⟩ := split_unique (hsplit.symm.trans hsplit')
    (hcollects'.not_mem_of_opens hopens) (hcollects.not_mem_of_opens hopens')
  obtain ⟨htarget, hsize, rfl⟩ := hopens.unique hopens'
  obtain ⟨htaken, hphase⟩ := hcollects.unique hcollects'
  obtain ⟨target, size, taken, phase⟩ := d
  obtain ⟨target', size', taken', phase'⟩ := d'
  dsimp only at htarget hsize htaken hphase
  rw [htarget, hsize, htaken, hphase]

/-- Messages and answers determine what is stored. -/
theorem Stores.unique {past : List Exchange} {target target' : Address}
    {object object' : List UInt8} (h : Stores node past x target object)
    (h' : Stores node past x target' object') :
    target = target' ∧ object = object' := by
  cases h with
  | expedited asks _ whole =>
    cases h' with
    | expedited asks' _ whole' =>
      cases asks.unique asks'
      exact ⟨rfl, whole.trans whole'.symm⟩
    | segments _ asks' => cases asks.unique asks'
    | blocks _ asks' => cases asks.unique asks'
  | segments underWay asks _ whole =>
    cases h' with
    | expedited asks' => cases asks.unique asks'
    | segments underWay' asks' _ whole' =>
      cases asks.unique asks'
      cases underWay.unique underWay'
      exact ⟨rfl, whole.trans whole'.symm⟩
    | blocks _ asks' => cases asks.unique asks'
  | blocks underWay asks _ whole =>
    cases h' with
    | expedited asks' => cases asks.unique asks'
    | segments _ asks' => cases asks.unique asks'
    | blocks underWay' asks' _ whole' =>
      cases asks.unique asks'
      cases underWay.unique underWay'
      exact ⟨rfl, whole.trans whole'.symm⟩

end

end Canopen.Server
