import MonitoringPlug.Common
import MonitoringPlug.Lib.Format
import MonitoringPlug.Lib.Tokens

/-! What both Redis checks do with the server: the commands, and the lines of the reply to
`INFO`, each a key with what is behind it. -/
namespace MonitoringPlug.Redis

open CLoop CText
open MonitoringPlug.Common

/-- A reply as hiredis hands it on. -/
inductive Reply where
  | string (str : List Char)
  | status (str : List Char)
  | error (str : List Char)
  | integer (integer : Int)
  | nil
  | array (elements : List Reply)

/-- `reply->str`. -/
def Reply.str : Reply → Option (List Char)
  | .string str => some str
  | .status str => some str
  | _ => none

/-- A reply or none, with an exit for an error. -/
def mpRedisCommand (errstr : List Char) : Option Reply → Except (Option Exit) Reply
  | none => .error (some ⟨.critical, "Error: ".toList ++ errstr, none⟩)
  | some (.error str) => .error (some ⟨.critical, "Error: ".toList ++ str, none⟩)
  | some reply => .ok reply

/-- The error of the connection, the replies to the commands and `c->errstr` at each. -/
structure Server where
  err : Option (List Char)
  ping : Option Reply
  info : Option Reply
  config : Option Reply
  errstr : List Char

/-- `main` up to the reply to `INFO`. An error without an exit is a fault. -/
def readInfo (server : Server) : Except (Option Exit) Reply :=
  match server.err with
  | some errstr => .error (some ⟨.critical, "Error: ".toList ++ errstr, none⟩)
  | none => do
      let _ ← mpRedisCommand server.errstr server.ping
      mpRedisCommand server.errstr server.info

def crlf : List Char := ['\r', '\n']

/-- `strncmp` with the key, and the pointer behind it. -/
def behind (key line : List Char) : Option (List Char) :=
  if key.isPrefixOf line then some (line.drop key.length) else none

/-- The loop over the lines. Without a text there are none. -/
def readLines {State : Type} (body : State → List Char → Option State) (start : State)
    (str : Option (List Char)) : Option State :=
  (str.elim [] (tokens crlf)).foldlM body start

theorem readLines_returns {State : Type} (body : State → List Char → Option State) (start : State)
    (str : Option (List Char)) :
    Returns (tokenPass crlf body) (str, start) (readLines body start str) := by
  cases str with
  | none => exact Returns.leave rfl
  | some text => exact tokenPass_returns body text start

/-- What is behind a key in the last of the lines that have it. -/
def lastField (key : List Char) (lines : List (List Char)) : Option (List Char) :=
  (lines.filterMap (behind key)).getLast?

def infoText (lines : List (List Char)) : List Char := lines.flatMap fun line => line ++ crlf

section Lines

variable {key line value : List Char} {lines : List (List Char)}

theorem lastField_told (h : behind key line = some value) :
    lastField key (lines ++ [line]) = some value := by
  simp [lastField, h]

theorem lastField_other (h : behind key line = none) :
    lastField key (lines ++ [line]) = lastField key lines := by
  simp [lastField, h]

/-- A line does not have two keys, neither of which starts with the other one. -/
theorem behind_other (other : List Char) (h : behind key line = some value) (hKey : ¬key <+: other)
    (hOther : ¬other <+: key) : behind other line = none := by
  have hPrefix : key <+: line := by
    by_contra hNot
    rw [behind, if_neg (by rwa [List.isPrefixOf_iff_prefix])] at h
    cases h
  refine if_neg ?_
  rw [List.isPrefixOf_iff_prefix]
  intro hBoth
  rcases List.prefix_or_prefix_of_prefix hPrefix hBoth with hLess | hMore
  · exact hKey hLess
  · exact hOther hMore

/-- The delimiters behind the lines only make tokens without a key. -/
theorem tokens_infoText (h : ∀ line ∈ lines, ∀ c ∈ line, c ∉ crlf) :
    tokens crlf (infoText lines) = lines.flatMap (fun line => [line, []]) ++ [[]] := by
  induction lines with
  | nil => rfl
  | cons line lines ih =>
      obtain ⟨hLine, hLines⟩ := List.forall_mem_cons.mp h
      have hText : infoText (line :: lines) = line ++ '\r' :: ([] ++ '\n' :: infoText lines) := by
        simp [infoText, crlf]
      rw [hText, tokens_strsepAny, strsepAny_append hLine (by decide), Option.map_some,
        Option.getD_some, tokens_strsepAny crlf ([] ++ _),
        strsepAny_append (List.forall_mem_nil _) (by decide), Option.map_some, Option.getD_some,
        ih hLines]
      rfl

/-- So what is looked up in the tokens is looked up in the lines. -/
theorem filterMap_infoText {β : Type} {f : List Char → Option β} (hEmpty : f [] = none)
    (h : ∀ line ∈ lines, ∀ c ∈ line, c ∉ crlf) :
    (tokens crlf (infoText lines)).filterMap f = lines.filterMap f := by
  have hPair (line : List Char) : [line, []].filterMap f = [line].filterMap f := by
    simp [List.filterMap_cons, hEmpty]
  rw [tokens_infoText h, List.filterMap_append, List.filterMap_flatMap]
  simp only [hPair]
  rw [← List.filterMap_flatMap]
  simp [hEmpty]

theorem behind_empty (h : key ≠ []) : behind key [] = none := by
  cases key with
  | nil => exact absurd rfl h
  | cons c key => rfl

theorem lastField_infoText (hSome : key ≠ []) (h : ∀ line ∈ lines, ∀ c ∈ line, c ∉ crlf) :
    lastField key (tokens crlf (infoText lines)) = lastField key lines := by
  rw [lastField, filterMap_infoText (behind_empty hSome) h, lastField]

end Lines

end MonitoringPlug.Redis
