import Mathlib.Data.List.Induction
import MonitoringPlug.Lib.Block
import MonitoringPlug.Lib.Rounds

/-! The body of a request or an answer: the callbacks through which libcurl fills it and
reads it, in any order. -/
namespace MonitoringPlug.Curl.Body

open CLoop CMemory

/-- `struct mp_curl_data`. Without any bytes `data` is NULL. -/
structure MpCurlData where
  data : Block
  start : UInt64
  size : UInt64
deriving DecidableEq

/-- What libcurl hands over: an object of `size * nmemb` bytes. -/
structure Chunk where
  size : UInt64
  nmemb : UInt64
  contents : List UInt8
  whole : contents.length = (size * nmemb).toNat

/-- The return value, and the body behind the call. No result when bytes outside of an
object are written. -/
def mpCurlRecvData (chunk : Chunk) (data : MpCurlData) : Option (UInt64 × MpCurlData) := do
  let dataSize := chunk.size * chunk.nmemb
  let block := realloc data.data (data.size + dataSize + 1).toNat
  let block ← store block data.size.toNat chunk.contents
  let size := data.size + dataSize
  let block ← store block size.toNat [0]
  some (dataSize, { data with data := block, size := size })

/-- The return value, the bytes copied to `ptr`, and the body behind the call. -/
def mpCurlSendData (size nmemb : UInt64) (data : MpCurlData) :
    Option (UInt64 × List UInt8 × MpCurlData) := do
  let readSize := size * nmemb
  let readSize := if readSize > data.size - data.start then data.size - data.start else readSize
  let bytes ← loadBytes data.data data.start.toNat readSize.toNat
  some (readSize, bytes, { data with start := data.start + readSize })

inductive Call where
  | recv (chunk : Chunk)
  | send (size nmemb : UInt64)

def Call.contents : Call → List UInt8
  | .recv chunk => chunk.contents
  | .send _ _ => []

def Call.isRecv : Call → Bool
  | .recv _ => true
  | .send _ _ => false

/-- One call; `sent` gathers what was copied. -/
def callStep (state : MpCurlData × List UInt8) : Call → Option (MpCurlData × List UInt8)
  | .recv chunk => (mpCurlRecvData chunk state.1).map fun (_, data) => (data, state.2)
  | .send size nmemb =>
      (mpCurlSendData size nmemb state.1).map fun (_, bytes, data) => (data, state.2 ++ bytes)

/-- All calls, from the body that `memset` clears. -/
def runCalls (calls : List Call) : Option (MpCurlData × List UInt8) :=
  calls.foldlM callStep ({ data := [], start := 0, size := 0 }, [])

/-- Everything libcurl handed over. -/
def received (calls : List Call) : List UInt8 := calls.flatMap Call.contents

/-- What is true behind any calls. -/
structure Tracks (calls : List Call) (data : MpCurlData) (sent : List UInt8) : Prop where
  size : data.size.toNat = (received calls).length
  start : data.start ≤ data.size
  sent : sent = (received calls).take data.start.toNat
  unset : calls.any Call.isRecv = false → data.data = []
  held : calls.any Call.isRecv = true → data.data = (received calls ++ [0]).map some

variable {calls : List Call} {data : MpCurlData} {sent : List UInt8}

/-- The object starts with what was received, also before there is one. -/
theorem Tracks.holds (h : Tracks calls data sent) : Holds data.data (received calls) := by
  cases hRecv : calls.any Call.isRecv with
  | true =>
      rw [h.held hRecv, List.map_append]
      exact List.prefix_append _ _
  | false =>
      have hNone : received calls = [] := by
        apply List.flatMap_eq_nil_iff.mpr
        intro call hCall
        cases call with
        | recv chunk => exact absurd rfl (List.any_eq_false.mp hRecv _ hCall)
        | send size nmemb => rfl
      rw [hNone]
      exact Holds.nil _

theorem Tracks.difference (h : Tracks calls data sent) :
    (data.size - data.start).toNat = (received calls).length - data.start.toNat := by
  rw [UInt64.toNat_sub_of_le _ _ h.start, h.size]

theorem Tracks.start_le (h : Tracks calls data sent) :
    data.start.toNat ≤ (received calls).length := by
  rw [← h.size]
  exact UInt64.le_iff_toNat_le.mp h.start

/-- The difference limits what is asked for. -/
theorem Tracks.readSize (h : Tracks calls data sent) (asked : UInt64) :
    (if asked > data.size - data.start then data.size - data.start else asked).toNat =
      min asked.toNat ((received calls).length - data.start.toNat) := by
  rw [← h.difference]
  split_ifs with hMore
  · have hLess := UInt64.lt_iff_toNat_lt.mp hMore
    omega
  · have hLess := mt UInt64.lt_iff_toNat_lt.mpr hMore
    omega

/-- What was sent, what is loaded now, and the rest. -/
theorem Tracks.loadBytes (h : Tracks calls data sent) {count : Nat}
    (hRoom : count ≤ ((received calls).drop data.start.toNat).length) :
    CMemory.loadBytes data.data data.start.toNat count =
      some (((received calls).drop data.start.toNat).take count) := by
  have hSplit : received calls = (received calls).take data.start.toNat ++
      (((received calls).drop data.start.toNat).take count ++
        ((received calls).drop data.start.toNat).drop count) := by
    rw [List.take_append_drop, List.take_append_drop]
  have hHolds := h.holds
  rw [hSplit] at hHolds
  have hLoad := hHolds.loadBytes
  rwa [List.length_take_of_le h.start_le, List.length_take_of_le hRoom] at hLoad

theorem received_snoc (calls : List Call) (call : Call) :
    received (calls ++ [call]) = received calls ++ call.contents := by
  simp [received]

/-- A chunk goes behind what was received, as far as the sum of both sizes is one. -/
theorem Tracks.recv (h : Tracks calls data sent) (chunk : Chunk)
    (hFits : (received calls).length + chunk.contents.length + 1 < UInt64.size) :
    ∃ data', mpCurlRecvData chunk data = some (chunk.size * chunk.nmemb, data') ∧
      Tracks (calls ++ [.recv chunk]) data' sent := by
  have hLimit : UInt64.size = 18446744073709551616 := rfl
  have hReceived : received (calls ++ [.recv chunk]) = received calls ++ chunk.contents :=
    received_snoc calls (.recv chunk)
  have hSize : (data.size + chunk.size * chunk.nmemb).toNat =
      (received calls ++ chunk.contents).length := by
    rw [UInt64.toNat_add, h.size, ← chunk.whole, List.length_append]
    omega
  have hAll : (data.size + chunk.size * chunk.nmemb + 1).toNat =
      (received calls ++ chunk.contents).length + 1 := by
    rw [UInt64.toNat_add, hSize, UInt64.toNat_one, List.length_append]
    omega
  have hGrown := h.holds.realloc
    (show (received calls).length ≤ (received calls ++ chunk.contents).length + 1 by
      rw [List.length_append]
      omega)
  obtain ⟨copied, hCopy, hCopied, hLength⟩ := hGrown.store chunk.contents
    (by rw [realloc_length, List.length_append]; omega)
  obtain ⟨ended, hEnd, hEnded, hLength'⟩ := hCopied.store [0]
    (by rw [hLength, realloc_length]; exact Nat.le_refl _)
  have hExact : ended = (received calls ++ chunk.contents ++ [0]).map some := by
    apply (List.IsPrefix.eq_of_length hEnded _).symm
    rw [hLength', hLength, realloc_length, List.length_map, List.length_append,
      List.length_singleton]
  refine ⟨{ data with data := ended, size := data.size + chunk.size * chunk.nmemb }, ?_, ?_⟩
  · rw [mpCurlRecvData, hAll, h.size]
    simp only [hCopy, Option.bind_eq_bind, Option.bind_some, hSize, hEnd]
  · have hStart := h.start_le
    constructor
    · rw [hReceived]
      exact hSize
    · rw [UInt64.le_iff_toNat_le, hSize, List.length_append]
      show data.start.toNat ≤ _
      omega
    · rw [hReceived, List.take_append_of_le_length hStart]
      exact h.sent
    · intro hNone
      simp [Call.isRecv] at hNone
    · intro _
      rw [hReceived]
      exact hExact

/-- What is sent is what comes next, as much of it as is asked for and there. -/
theorem Tracks.send (h : Tracks calls data sent) (size nmemb : UInt64) :
    ∃ readSize bytes data', mpCurlSendData size nmemb data = some (readSize, bytes, data') ∧
      readSize.toNat = min (size * nmemb).toNat ((received calls).length - data.start.toNat) ∧
      bytes.length = readSize.toNat ∧ data'.data = data.data ∧
      Tracks (calls ++ [.send size nmemb]) data' (sent ++ bytes) := by
  have hStart := h.start_le
  have hReceived : received (calls ++ [.send size nmemb]) = received calls := by
    rw [received_snoc]
    exact List.append_nil _
  have hCount := h.readSize (size * nmemb)
  generalize hRead : (if size * nmemb > data.size - data.start then data.size - data.start
    else size * nmemb) = readSize at hCount
  have hRoom : readSize.toNat ≤ ((received calls).drop data.start.toNat).length := by
    rw [List.length_drop]
    omega
  have hNext : (data.start + readSize).toNat = data.start.toNat + readSize.toNat := by
    have hLess := data.size.toNat_lt
    rw [h.size] at hLess
    rw [List.length_drop] at hRoom
    rw [UInt64.toNat_add]
    omega
  refine ⟨readSize, _, { data with start := data.start + readSize }, ?_, hCount,
    List.length_take_of_le hRoom, rfl, ?_⟩
  · simp only [mpCurlSendData, hRead, h.loadBytes hRoom, Option.bind_eq_bind, Option.bind_some]
  · constructor
    · rw [hReceived]
      exact h.size
    · rw [UInt64.le_iff_toNat_le, hNext, h.size]
      rw [List.length_drop] at hRoom
      omega
    · rw [hReceived, hNext, List.take_add, ← h.sent]
    · intro hNone
      exact h.unset (by simpa [Call.isRecv] using hNone)
    · intro hSome
      rw [hReceived]
      exact h.held (by simpa [Call.isRecv] using hSome)

/-- Once everything is sent nothing more is. -/
theorem Tracks.send_end (h : Tracks calls data sent) (hAll : data.start = data.size)
    (size nmemb : UInt64) : mpCurlSendData size nmemb data = some (0, [], data) := by
  obtain ⟨readSize, bytes, data', hSend, hCount, hBytes, hData, -⟩ := h.send size nmemb
  have hNone : readSize = 0 := by
    rw [← UInt64.toNat_inj, hCount, hAll, h.size, Nat.sub_self]
    exact Nat.min_zero _
  have hEmpty : bytes = [] := List.eq_nil_of_length_eq_zero (by rw [hBytes, hNone]; rfl)
  simp only [mpCurlSendData, Option.bind_eq_bind, Option.bind_eq_some_iff, Option.some.injEq,
    Prod.mk.injEq] at hSend
  obtain ⟨read, hLoad, hRead, hCopied, hState⟩ := hSend
  rw [hRead, hNone] at hLoad
  rw [mpCurlSendData]
  simp only [hRead, hNone, Option.bind_eq_bind, hLoad, Option.bind_some, hCopied, hEmpty,
    UInt64.add_zero]

/-- The calls a process can make: what is received fits into one object with its NUL. -/
structure Transfer where
  calls : List Call
  fits : (received calls).length + 1 < UInt64.size

theorem runCalls_snoc (calls : List Call) (call : Call) :
    runCalls (calls ++ [call]) = (runCalls calls).bind fun state => callStep state call := by
  rw [runCalls, List.foldlM_append]
  simp [runCalls]

theorem tracks_runCalls (calls : List Call)
    (hFits : (received calls).length + 1 < UInt64.size) :
    ∃ data sent, runCalls calls = some (data, sent) ∧ Tracks calls data sent := by
  induction calls using List.reverseRecOn with
  | nil =>
      refine ⟨_, _, rfl, ?_⟩
      constructor
      · rfl
      · exact UInt64.le_refl 0
      · rfl
      · exact fun _ => rfl
      · intro hSome
        cases hSome
  | append_singleton calls call ih =>
      rw [received_snoc, List.length_append] at hFits
      obtain ⟨data, sent, hRun, hTracks⟩ := ih (by omega)
      rw [runCalls_snoc, hRun, Option.bind_some]
      cases call with
      | recv chunk =>
          obtain ⟨data', hCall, hNext⟩ := hTracks.recv chunk hFits
          exact ⟨data', sent, by rw [callStep, hCall]; rfl, hNext⟩
      | send size nmemb =>
          obtain ⟨readSize, bytes, data', hCall, -, -, -, hNext⟩ := hTracks.send size nmemb
          exact ⟨data', sent ++ bytes, by rw [callStep, hCall]; rfl, hNext⟩

/-- In any order of calls: the object holds all that was received, with a NUL behind it; what
was sent is its front; `start` stays within `size`; and behind the end nothing is sent. -/
theorem runCalls_keeps (transfer : Transfer) :
    ∃ data sent, runCalls transfer.calls = some (data, sent) ∧
      data.size.toNat = (received transfer.calls).length ∧
      (transfer.calls.any Call.isRecv = true →
        data.data = (received transfer.calls ++ [0]).map some) ∧
      data.start ≤ data.size ∧
      (data.size - data.start).toNat = data.size.toNat - data.start.toNat ∧
      sent = (received transfer.calls).take data.start.toNat ∧
      (data.start = data.size → sent = received transfer.calls ∧
        ∀ size nmemb, mpCurlSendData size nmemb data = some (0, [], data)) := by
  obtain ⟨data, sent, hRun, h⟩ := tracks_runCalls transfer.calls transfer.fits
  refine ⟨data, sent, hRun, h.size, h.held, h.start, ?_, h.sent, ?_⟩
  · rw [h.difference, h.size]
  · intro hAll
    apply And.intro _ (h.send_end hAll)
    rw [h.sent, hAll, h.size, List.take_length]

/-- Two chunks, with a request between them and one for more than there is behind them. -/
def mixedTransfer : Transfer where
  calls :=
    [.recv ⟨1, 2, [97, 98], rfl⟩, .send 1 1, .recv ⟨1, 1, [99], rfl⟩, .send 2 4, .send 1 1]
  fits := by decide

theorem runCalls_keeps_mixed :
    ∃ data, runCalls mixedTransfer.calls = some (data, [97, 98, 99]) ∧
      data.data = [some 97, some 98, some 99, some 0] ∧
      ∀ size nmemb, mpCurlSendData size nmemb data = some (0, [], data) := by
  obtain ⟨data, sent, hRun, -, hHeld, -, -, -, hEnd⟩ := runCalls_keeps mixedTransfer
  have hSample : runCalls mixedTransfer.calls =
      some (⟨[some 97, some 98, some 99, some 0], 3, 3⟩, [97, 98, 99]) := by decide
  obtain ⟨rfl, rfl⟩ := Prod.mk.inj (Option.some.inj (hRun.symm.trans hSample))
  exact ⟨_, hSample, hHeld rfl, (hEnd rfl).2⟩

end MonitoringPlug.Curl.Body
