import Canopen.Proofs.LossyBlockDownloads
import Canopen.Proofs.UploadSafety
import Mathlib.Control.Monad.Basic

set_option autoImplicit false

namespace Canopen

open Sdo

namespace Sdo

variable (object : List UInt8)

/-- The address that the last segment of an object names when it is read as a request. That is in
the first three bytes of it, whatever the command. -/
def strayAddress : Address :=
  Address.ofPayload (segmented 0 (padTo 7 (segmentBytes object (segmentCount object - 1))))

def lastBlock (blockSize : Nat) : Nat := (segmentCount object - 1) % blockSize + 1

theorem eq_lastBlock {blockSize start length : Nat} (hstart : start % blockSize = 0)
    (h0 : 0 < length) (hle : length ≤ blockSize) (h : start + length = segmentCount object) :
    length = lastBlock object blockSize := by
  obtain ⟨k, rfl⟩ := Nat.dvd_of_mod_eq_zero hstart
  have hlast : blockSize * k + length - 1 = length - 1 + blockSize * k := by omega
  rw [lastBlock, ← h, hlast, Nat.add_mul_mod_self_left, Nat.mod_eq_of_lt (by omega)]
  omega

end Sdo

namespace Server

variable {srv : Server} {a : Address} {data : List UInt8}

/-- The download that the client means. Its buffer may hold segments twice, and then it is longer
than the object. -/
structure BlockDownload.Aimed (a : Address) (data : List UInt8) (start : Nat)
    (t : BlockDownload) : Prop where
  target : t.target = a
  size : t.size = some data.length
  ahead : ∃ k, t.buffer.length = k * segmentSize ∧ start + t.seqno.toNat ≤ k ∧
    (k = start + t.seqno.toNat → t.buffer = filled data k)

/-- A download that the last segment of all has started. Only segments of the last block come. -/
structure BlockDownload.Astray (srv : Server) (data : List UInt8) (start : Nat)
    (t : BlockDownload) : Prop where
  target : t.target = strayAddress data
  inside : start < segmentCount data
  last : segmentCount data - start ≤ srv.blockSize.toNat
  restarts : Restarts (segmentCount data - start)
  buffer : t.buffer = filled (data.drop (start * segmentSize)) t.seqno.toNat

def Strays (srv : Server) (a : Address) (data : List UInt8) (start : Nat) (t : BlockDownload) :
    Prop :=
  start % srv.blockSize.toNat = 0 ∧ (t.Aimed a data start ∨ t.Astray srv data start)

theorem drifts_strays : srv.Drifts data (srv.Strays a data) where
  accept := by
    rintro start t ⟨hstart, h⟩ hlt
    refine ⟨hstart, ?_⟩
    have hseqno : (UInt8.ofNat (t.seqno.toNat + 1)).toNat = t.seqno.toNat + 1 := by
      have hb := srv.blockSize.toNat_lt
      exact UInt8.toNat_ofNat_of_lt (show _ < 256 by omega)
    rcases h with ⟨htarget, hsize, k, hlength, hle, hfilled⟩ | ⟨htarget, hin, hlast, hr, hbuffer⟩
    · refine .inl ⟨htarget, hsize, k + 1, ?_, ?_, ?_⟩
      · rw [List.length_append, hlength, Vector.length_toList, Nat.succ_mul, segmentSize]
      · dsimp only
        omega
      · intro hk
        dsimp only at hk ⊢
        have hk' : k = start + t.seqno.toNat := by omega
        rw [filled_succ, ← hfilled hk', hk']
    · refine .inr ⟨htarget, hin, hlast, hr, ?_⟩
      dsimp only
      rw [hseqno, filled_succ, hbuffer, segmentBytes_drop]
  again := by
    rintro start t ⟨hstart, h⟩ hseqno hmore
    refine ⟨hstart, ?_⟩
    rcases h with ⟨htarget, hsize, k, hlength, hle, hfilled⟩ | ⟨-, -, hlast, -⟩
    · refine .inl ⟨htarget, hsize, k, hlength, Nat.le_trans (Nat.le_add_right _ _) hle, ?_⟩
      intro hk
      have hzero : (0 : UInt8).toNat = 0 := rfl
      dsimp only at hk
      exact hfilled (by omega)
    · omega
  next := by
    rintro start t ⟨hstart, h⟩ hseqno hmore
    refine ⟨by rw [Nat.add_mod_right, hstart], ?_⟩
    rcases h with ⟨htarget, hsize, k, hlength, hle, hfilled⟩ | ⟨-, -, hlast, -⟩
    · rw [hseqno] at hle hfilled
      exact .inl ⟨htarget, hsize, k, hlength, hle, hfilled⟩
    · omega

theorem strays_restarted {start : Nat} {t : BlockDownload} (h : srv.Strays a data start t)
    (hend : start + t.seqno.toNat = segmentCount data)
    (hle : t.seqno.toNat ≤ srv.blockSize.toNat) (hr : Restarts t.seqno.toNat) :
    srv.Strays a data start
      (srv.restarted (Client.blockSegment data (segmentCount data - 1) t.seqno)) := by
  have hpos := hr.1
  have hlength : segmentCount data - start = t.seqno.toNat := by omega
  refine ⟨h.1, .inr ⟨rfl, by omega, by omega, ?_, rfl⟩⟩
  rw [hlength]
  exact hr

/-- Whatever the server has at the end is the object, or what came of it in the last block. -/
theorem Strays.object {start : Nat} {t : BlockDownload} {object : List UInt8}
    (h : srv.Strays a data start t) (hend : start + t.seqno.toNat = segmentCount data)
    (h0 : 0 < t.seqno.toNat) (hle : t.seqno.toNat ≤ srv.blockSize.toNat)
    (hobject : object = t.buffer.take (t.buffer.length
      - (segmentCount data * segmentSize - data.length)))
    (hfits : t.size.all (· = object.length) = true) :
    t.target = a ∧ object = data ∨
      let length := lastBlock data srv.blockSize.toNat
      Restarts length ∧ t.target = strayAddress data ∧
        object = data.drop ((segmentCount data - length) * segmentSize) := by
  obtain ⟨hstart, h⟩ := h
  have hspec := segmentCount_spec data
  rcases h with ⟨htarget, hsize, k, hlength, hk, hfilled⟩ | ⟨htarget, hin, -, hr, hbuffer⟩
  · left
    rw [hsize] at hfits
    have hfull : object.length = data.length := (of_decide_eq_true hfits).symm
    rw [hobject, List.length_take, hlength] at hfull
    simp only [segmentSize] at *
    have hkcount : k = start + t.seqno.toNat := by omega
    rw [hfilled hkcount, hkcount, hend] at hobject
    exact ⟨htarget, hobject.trans (take_filled_sub_unused data)⟩
  · right
    have hlast := eq_lastBlock data hstart h0 hle hend
    have hlength : segmentCount data - start = t.seqno.toNat := by omega
    have hbehind : segmentCount data - t.seqno.toNat = start := by omega
    have hcount := segmentCount_drop data hin
    have hseqno : t.seqno.toNat = segmentCount (data.drop (start * segmentSize)) := by omega
    rw [hlength] at hr
    rw [hseqno] at hbuffer
    dsimp only
    rw [← hlast, hbehind]
    refine ⟨hr, htarget, hobject.trans ?_⟩
    rw [hbuffer, ← unused_drop data hin]
    exact take_filled_sub_unused _

def Strayed (srv : Server) (data : List UInt8) (s : Server) : Prop :=
  let length := lastBlock data srv.blockSize.toNat
  Restarts length ∧
    srv.Stored (strayAddress data) (data.drop ((segmentCount data - length) * segmentSize)) s

end Server

namespace Client

open Transfer

variable {x : Losses}

theorem Call.drifting {c : Call Line} {srv : Server} {data : List UInt8} (h : c.Exposed x srv) :
    c.Drifting x srv data (srv.Strays c.target data) 0 where
  toExposed := h
  drifts := Server.drifts_strays
  restart := fun _ _ _ _ _ ht hend hle hr => Server.strays_restarted ht hend hle hr

theorem Call.strays_start (c : Call Line) (srv : Server) (crc : Bool) (data : List UInt8) :
    srv.Strays c.target data 0 (.upTo c.target crc data 0 0) :=
  ⟨Nat.zero_mod _, .inl ⟨rfl, rfl, 0, rfl, Nat.le_refl _, fun _ => rfl⟩⟩

section
variable {client : Client Line} (hc : client.link = Line.link x) {l : Line}
  (faultless : l.server.faults = {}) (idle : l.server.state = .idle) {target : Address}
  {data : List UInt8}
include hc faultless idle

theorem downloadExpedited_ok
    (h : (client.downloadExpedited l.server.node.value target data l).1 = .ok ()) :
    l.server.Stored target data
      (client.downloadExpedited l.server.node.value target data l).2.server := by
  rw [downloadExpedited] at h ⊢
  split at h
  · rename_i hfits
    rw [dif_pos hfits]
    obtain ⟨t, hstored, hfinal⟩ := transfer_ends hc (Call.ends_downloadExpedited_lossy
      (exposed hc faultless .download) (Call.rests_start _ .expedited idle) hfits.2 hfits.1) h
    rw [hfinal]
    exact hstored
  · cases h

theorem downloadSegmented_ok
    (h : (client.downloadSegmented l.server.node.value target data l).1 = .ok ()) :
    l.server.Stored target data
      (client.downloadSegmented l.server.node.value target data l).2.server := by
  rw [downloadSegmented] at h ⊢
  split at h
  · rename_i hsize
    rw [if_pos hsize]
    obtain ⟨t, hstored, hfinal⟩ := transfer_ends hc (Call.ends_downloadSegmented_lossy
      (exposed hc faultless .download) (Call.rests_start _ .segmented idle) hsize rfl) h
    rw [hfinal]
    exact hstored
  · cases h

theorem downloadBlock_ok
    (h : (client.downloadBlock l.server.node.value target data l).1 = .ok ()) :
    let s := (client.downloadBlock l.server.node.value target data l).2.server
    l.server.Stored target data s ∨ l.server.Strayed data s := by
  rw [downloadBlock] at h ⊢
  split at h
  · rename_i hsize
    rw [if_pos hsize]
    obtain ⟨t, ⟨start, length, d, object, k, hend, h0, hle, hd, rfl, hobject, hfits, hserver⟩,
      hfinal⟩ := transfer_ends hc (Call.ends_downloadBlock_lossy
        (Call.drifting (exposed hc faultless .download)) (Call.rests_start _ .block idle) hsize
        (Call.strays_start _ _ _ _)) h
    dsimp only
    rw [hfinal, hserver]
    have hstored := l.server.stored_store d.target object .idle k
    rcases hd.object hend h0 hle hobject hfits with ⟨htarget, rfl⟩ | ⟨hr, htarget, rfl⟩
    · rw [htarget] at hstored ⊢
      exact .inl hstored
    · rw [htarget] at hstored ⊢
      exact .inr ⟨hr, hstored⟩
  · cases h

theorem download_ok (h : (client.download l.server.node.value target data l).1 = .ok ()) :
    let s := (client.download l.server.node.value target data l).2.server
    l.server.Stored target data s ∨
      client.config.downloadMode data.length = .block ∧ l.server.Strayed data s := by
  rw [download] at h ⊢
  cases hmode : client.config.downloadMode data.length with
  | expedited =>
    rw [hmode] at h
    exact .inl (downloadExpedited_ok hc faultless idle h)
  | segmented =>
    rw [hmode] at h
    exact .inl (downloadSegmented_ok hc faultless idle h)
  | block =>
    rw [hmode] at h
    exact (downloadBlock_ok hc faultless idle h).imp_right fun hs => ⟨rfl, hs⟩

theorem downloadNumber_ok {value : UInt32} {size : Nat}
    (h : (client.downloadNumber l.server.node.value target value size l).1 = .ok ()) :
    l.server.Stored target ((bytesOfWord value).toList.take size)
      (client.downloadNumber l.server.node.value target value size l).2.server := by
  rw [downloadNumber] at h ⊢
  split at h
  · rename_i hsize
    rw [if_pos hsize]
    exact downloadExpedited_ok hc faultless idle h
  · cases h

end

def Operation.delivers (config : Config) : Operation → Option (List UInt8 × Mode)
  | download data => some (data, config.downloadMode data.length)
  | downloadExpedited data => some (data, .expedited)
  | downloadSegmented data => some (data, .segmented)
  | downloadBlock data => some (data, .block)
  | downloadNumber value size => some ((bytesOfWord value).toList.take size, .expedited)
  | _ => none

/-- Whatever is lost, a download that succeeds has left the object at the address and no other
object changed, unless it was one in blocks whose last block reads as the start of another. -/
theorem download_stores_or_strays (config : Config) (valid : config.Valid) (x : Losses)
    (patience : Nat) (l : Line) (faultless : l.server.faults = {})
    (idle : l.server.state = .idle) (target : Address) {op : Operation} {data : List UInt8}
    {mode : Mode} (delivers : op.delivers config = some (data, mode)) {v : Value}
    (h : ((Line.client x config valid patience).perform l.server.node.value target op l).1
      = .ok v) :
    let s := ((Line.client x config valid patience).perform l.server.node.value target op
      l).2.server
    l.server.Stored target data s ∨ mode = .block ∧ l.server.Strayed data s := by
  cases op with
  | download d =>
    cases delivers
    obtain ⟨⟨⟩, hok, -⟩ := Outcome.map_ok h
    exact download_ok rfl faultless idle hok
  | downloadExpedited d =>
    cases delivers
    obtain ⟨⟨⟩, hok, -⟩ := Outcome.map_ok h
    exact .inl (downloadExpedited_ok rfl faultless idle hok)
  | downloadSegmented d =>
    cases delivers
    obtain ⟨⟨⟩, hok, -⟩ := Outcome.map_ok h
    exact .inl (downloadSegmented_ok rfl faultless idle hok)
  | downloadBlock d =>
    cases delivers
    obtain ⟨⟨⟩, hok, -⟩ := Outcome.map_ok h
    exact (downloadBlock_ok rfl faultless idle hok).imp_right fun hs => ⟨rfl, hs⟩
  | downloadNumber value size =>
    cases delivers
    obtain ⟨⟨⟩, hok, -⟩ := Outcome.map_ok h
    exact .inl (downloadNumber_ok rfl faultless idle hok)
  | _ => cases delivers

theorem download_stores_or_strays_in_segments :
    let l : Line :=
      { server :=
          { node := ⟨5, by decide, by decide⟩
            objects := ⟨[(⟨0x2000, 0⟩, [1]), (⟨0x2001, 0⟩, [2])]⟩ } }
    let x : Losses := { request := (· = 0), answer := fun i k => i = 1 ∧ k = 0 }
    let config : Config := { timeoutMs := 1, pollIntervalUs := 1000 }
    let data : List UInt8 := [1, 2, 3, 4, 5, 6, 7, 8, 9]
    let o := (Line.client x config (by decide) 20).perform 5 ⟨0x2000, 0⟩ (.downloadSegmented data) l
    o.1 = .ok .done ∧
      (l.server.Stored ⟨0x2000, 0⟩ data o.2.server ∨
        Mode.segmented = .block ∧ l.server.Strayed data o.2.server) := by
  intro l x config data o
  have hok : o.1 = .ok .done := by decide +kernel
  have hdelivers : (Operation.downloadSegmented data).delivers config = some (data, .segmented) :=
    rfl
  exact ⟨hok, download_stores_or_strays config (by decide) x 20 l rfl rfl ⟨0x2000, 0⟩ hdelivers
    hok⟩

/-- Two answers in a row are lost, the acknowledgement of the only block and the answer to its last
segment when that comes again. -/
theorem download_strays_from_block_of_64_segments :
    let l : Line :=
      { server :=
          { node := ⟨5, by decide, by decide⟩
            objects := ⟨[(⟨0x2000, 0⟩, [1])]⟩
            blockSize := 64 } }
    let x : Losses := { answer := fun i k => (i = 64 ∨ i = 65) ∧ k = 0 }
    let config : Config := { timeoutMs := 1, pollIntervalUs := 1000, useCrc := false }
    let data : List UInt8 := List.replicate 448 7
    let o := (Line.client x config (by decide) 20).perform 5 ⟨0x2000, 0⟩ (.downloadBlock data) l
    o.1 = .ok .done ∧ o.2.server.objects.get? ⟨0x2000, 0⟩ = some [1] ∧
      o.2.server.objects.get? ⟨0x0707, 7⟩ = some data := by
  decide +kernel

end Client
end Canopen
