import MonitoringPlug.Lib.Block

/-! FastCGI records on the wire, and `mp_fcgi_read`. The reads of the FastCGI
library are a parameter. -/
namespace MonitoringPlug.Fcgi

open CMemory

def fcgiEndRequest : UInt8 := 3
def fcgiStdout : UInt8 := 6
def fcgiStderr : UInt8 := 7

/-- `OS_Read` of this many bytes: the bytes that were read, and what is left. -/
abbrev OsRead := Nat → List UInt8 → List UInt8 × List UInt8

/-- It is one `read`, which takes what has arrived and no more than was asked for. -/
structure ReadsFront (osRead : OsRead) : Prop where
  front : ∀ count stream, ∃ n ≤ count, osRead count stream = (stream.take n, stream.drop n)

/-- The read delivers what was asked for. -/
def Delivers (osRead : OsRead) (count : Nat) (stream : List UInt8) : Prop :=
  osRead count stream = (stream.take count, stream.drop count)

theorem ReadsFront.delivers {osRead : OsRead} (h : ReadsFront osRead) {count : Nat}
    {stream : List UInt8} (hLength : (osRead count stream).1.length = count) :
    Delivers osRead count stream := by
  obtain ⟨n, hCount, hRead⟩ := h.front count stream
  rw [hRead, List.length_take] at hLength
  obtain rfl : n = count := by omega
  exact hRead

/-- What a call of `mp_fcgi_read` returns, and the rest of the stream. -/
structure FcgiRead where
  type : UInt8
  content : Option Block
  contentLength : Nat
  paddingLength : Nat
  rest : List UInt8

/-- The size of the header object is the one of a pointer, which is 8 like the
size of a header. A result is missing where the plugin exits. -/
def mpFcgiRead (osRead : OsRead) (content : Option Block) (stream : List UInt8) :
    Option FcgiRead :=
  let (header, stream) := osRead 8 stream
  match header with
  | [_, type, _, _, contentLengthB1, contentLengthB0, paddingLength, _] =>
      let contentLength := contentLengthB1.toNat * 256 + contentLengthB0.toNat
      if 0 < contentLength then
        let (bytes, rest) := osRead (contentLength + paddingLength.toNat) stream
        if bytes.length ≠ contentLength + paddingLength.toNat then none
        else
          (store (malloc (contentLength + paddingLength.toNat + 1)) 0 bytes).map fun block =>
            { type := type, content := some block, contentLength := contentLength,
              paddingLength := paddingLength.toNat, rest := rest }
      else
        some { type := type, content := content, contentLength := contentLength,
               paddingLength := paddingLength.toNat, rest := stream }
  | _ => none

/-- A record as a server sends it, its type apart. -/
structure Record where
  version : UInt8
  requestIdB1 : UInt8
  requestIdB0 : UInt8
  reserved : UInt8
  content : List UInt8
  padding : List UInt8
  contentFits : content.length < 65536
  paddingFits : padding.length < 256

namespace Record

def header (r : Record) (type : UInt8) : List UInt8 :=
  [r.version, type, r.requestIdB1, r.requestIdB0, UInt8.ofNat (r.content.length / 256),
    UInt8.ofNat (r.content.length % 256), UInt8.ofNat r.padding.length, r.reserved]

def encode (r : Record) (type : UInt8) : List UInt8 := r.header type ++ (r.content ++ r.padding)

/-- The object a record is read into. The byte behind the padding is never
written. -/
def block (r : Record) : Block := (r.content ++ r.padding).map some ++ [none]

/-- What `mp_fcgi_read` leaves in a pointer that was NULL. -/
def pointer (r : Record) : Option Block := if r.content = [] then none else some r.block

/-- What it leaves of the stream: an empty record's padding is not read. -/
def unread (r : Record) (rest : List UInt8) : List UInt8 :=
  if r.content = [] then r.padding ++ rest else rest

theorem encode_length (r : Record) (type : UInt8) :
    (r.encode type).length = 8 + r.content.length + r.padding.length := by
  simp only [encode, header, List.length_append, List.length_cons, List.length_nil]
  omega

theorem store_block (r : Record) :
    store (malloc (r.content.length + r.padding.length + 1)) 0 (r.content ++ r.padding) =
      some r.block := by
  have hFits : 0 + (r.content ++ r.padding).length ≤
      (malloc (r.content.length + r.padding.length + 1)).length := by simp
  have hLast : (malloc (r.content.length + r.padding.length + 1)).drop
      (0 + (r.content ++ r.padding).length) = [none] := by
    simp [malloc, List.drop_replicate]
  rw [store, if_pos hFits, hLast]
  rfl

/-- The read of the header and the one of the content get what they ask for, with this
much behind the record. -/
structure Arrives (r : Record) (osRead : OsRead) (type : UInt8) (rest : List UInt8) : Prop where
  header : Delivers osRead 8 (r.encode type ++ rest)
  content : r.content ≠ [] → Delivers osRead (r.content.length + r.padding.length)
    (r.content ++ (r.padding ++ rest))

section Read

variable {osRead : OsRead} (r : Record) (type : UInt8) (rest : List UInt8)

theorem take_header : (r.encode type ++ rest).take 8 = r.header type := rfl

theorem drop_header : (r.encode type ++ rest).drop 8 = r.content ++ (r.padding ++ rest) := by
  rw [encode, List.append_assoc, List.append_assoc]
  rfl

theorem contentLength_eq : (UInt8.ofNat (r.content.length / 256)).toNat * 256 +
    (UInt8.ofNat (r.content.length % 256)).toNat = r.content.length := by
  have hFits := r.contentFits
  rw [UInt8.toNat_ofNat', UInt8.toNat_ofNat']
  omega

theorem paddingLength_eq : (UInt8.ofNat r.padding.length).toNat = r.padding.length := by
  have hFits := r.paddingFits
  rw [UInt8.toNat_ofNat']
  omega

/-- Behind the header. -/
theorem mpFcgiRead_content (hHeader : Delivers osRead 8 (r.encode type ++ rest)) :
    mpFcgiRead osRead none (r.encode type ++ rest) =
      if 0 < r.content.length then
        let (bytes, rest) := osRead (r.content.length + r.padding.length)
          (r.content ++ (r.padding ++ rest))
        if bytes.length ≠ r.content.length + r.padding.length then none
        else
          (store (malloc (r.content.length + r.padding.length + 1)) 0 bytes).map fun block =>
            { type := type, content := some block, contentLength := r.content.length,
              paddingLength := r.padding.length, rest := rest }
      else
        some { type := type, content := none, contentLength := r.content.length,
               paddingLength := r.padding.length, rest := r.content ++ (r.padding ++ rest) } := by
  have hRead : osRead 8 (r.encode type ++ rest) = _ := hHeader
  rw [take_header, drop_header] at hRead
  simp only [mpFcgiRead, hRead, header, contentLength_eq, paddingLength_eq]

/-- Reading a record: its type, lengths and content. -/
theorem mpFcgiRead_record {type : UInt8} {rest : List UInt8} (h : r.Arrives osRead type rest) :
    mpFcgiRead osRead none (r.encode type ++ rest) =
      some { type := type, content := r.pointer, contentLength := r.content.length,
             paddingLength := r.padding.length, rest := r.unread rest } := by
  rw [mpFcgiRead_content r type rest h.header]
  by_cases hEmpty : r.content = []
  · simp [hEmpty, pointer, unread]
  · have hSome : 0 < r.content.length := List.length_pos_iff.mpr hEmpty
    have hBody : osRead (r.content.length + r.padding.length)
        (r.content ++ (r.padding ++ rest)) = (r.content ++ r.padding, rest) := by
      have hRead : osRead _ _ = _ := h.content hEmpty
      have hLength : (r.content ++ r.padding).length = r.content.length + r.padding.length :=
        List.length_append
      rw [hRead, ← List.append_assoc, ← hLength, List.take_left, List.drop_left]
    simp [hSome, hBody, hEmpty, pointer, unread, store_block]

/-- A read that ends without the exit of the plugin was served in full. -/
theorem arrives_of_read (hReads : ReadsFront osRead) {read : FcgiRead}
    (h : mpFcgiRead osRead none (r.encode type ++ rest) = some read) :
    r.Arrives osRead type rest := by
  have hHeader : Delivers osRead 8 (r.encode type ++ rest) := by
    apply hReads.delivers
    rw [mpFcgiRead] at h
    generalize osRead 8 (r.encode type ++ rest) = pair at h ⊢
    obtain ⟨header, behind⟩ := pair
    simp only at h
    split at h
    · rfl
    · cases h
  refine ⟨hHeader, fun hSome => hReads.delivers ?_⟩
  rw [mpFcgiRead_content r type rest hHeader, if_pos (List.length_pos_iff.mpr hSome)] at h
  by_contra hShort
  simp only [ne_eq, hShort, not_false_eq_true, if_true] at h
  cases h

end Read

end Record

end MonitoringPlug.Fcgi
