import Metafora.Task

/-! # `encoding/json` on a `map[string]string`

What `mclient.SubmitTask` writes and `parseTask`/`findProps` read back: the JSON of a task's
property map. A `Props` holds Lean strings, that is the Go strings that are valid UTF-8; on those
`encodeState.string` never meets the invalid bytes it would write as `\ufffd`, so that branch is
not modelled (see `Props`).

* `marshalProps`: `json.Marshal(m)`: `{`, the members `"key":"value"` in key order separated by
  `,`, then `}`. Strings are escaped as `encodeState.string` does with HTML escaping on:
  `\\` and `\"`, `\n` and `\r`, other control characters and `<`, `>`, `&`, U+2028 and U+2029
  as `\uXXXX`, every other character as it is.
* `unmarshalProps m data`: `json.Unmarshal(data, &m)`: an object adds its members to `m`
  (a later duplicate key wins), `null` makes `m` nil; the JSON string escapes, surrogate pairs,
  whitespace and `null` member values are read as Go reads them; anything else is an error.
* `unmarshalProps_marshalProps`: decoding what was encoded gives the map back.
-/

namespace Metafora
set_option autoImplicit false

/-! ## Encoding -/

/-- `hex[d]`: the lowercase hex digit of `d < 16`. -/
def hexDigit (d : Nat) : Char := if d < 10 then Char.ofNat (48 + d) else Char.ofNat (87 + d)

/-- `\uXXXX` for a code below `0x10000`. -/
def hexEscape (n : Nat) : List Char :=
  ['\\', 'u', hexDigit (n / 4096 % 16), hexDigit (n / 256 % 16), hexDigit (n / 16 % 16),
    hexDigit (n % 16)]

/-- `encodeState.string` on one character. -/
def escapeChar (c : Char) : List Char :=
  if c = '\\' ∨ c = '"' then ['\\', c]
  else if c = '\n' then ['\\', 'n']
  else if c = '\r' then ['\\', 'r']
  else if c.toNat < 0x20 ∨ c = '<' ∨ c = '>' ∨ c = '&' ∨ c.toNat = 0x2028 ∨ c.toNat = 0x2029 then
    hexEscape c.toNat
  else [c]

def encodeString (s : String) : List Char := '"' :: s.data.flatMap escapeChar ++ ['"']

def encodeMembers : List (String × String) → List Char
  | [] => []
  | [(k, v)] => encodeString k ++ ':' :: encodeString v
  | (k, v) :: e :: es => encodeString k ++ ':' :: encodeString v ++ ',' :: encodeMembers (e :: es)

/-- `json.Marshal(m)`. -/
def marshalProps (m : Props) : String := ⟨'{' :: encodeMembers m.entries ++ ['}']⟩

/-! ## Decoding -/

def isSpace (c : Char) : Bool := c = ' ' || c = '\t' || c = '\n' || c = '\r'

def skipSpace (cs : List Char) : List Char := cs.dropWhile isSpace

def hexVal (c : Char) : Option Nat :=
  if '0' ≤ c ∧ c ≤ '9' then some (c.toNat - 48)
  else if 'a' ≤ c ∧ c ≤ 'f' then some (c.toNat - 87)
  else if 'A' ≤ c ∧ c ≤ 'F' then some (c.toNat - 55)
  else none

/-- `getu4`: the code written by four hex digits. -/
def getu4 (a b c d : Char) : Option Nat :=
  match hexVal a, hexVal b, hexVal c, hexVal d with
  | some a, some b, some c, some d => some (a * 4096 + b * 256 + c * 16 + d)
  | _, _, _, _ => none

def isSurrogate (r : Nat) : Bool := 0xD800 ≤ r && r < 0xE000

/-- `utf16.DecodeRune(r1, r2)`, when it is not the replacement character. -/
def decodeSurrogates (r1 r2 : Nat) : Option Char :=
  if 0xD800 ≤ r1 ∧ r1 < 0xDC00 ∧ 0xDC00 ≤ r2 ∧ r2 < 0xE000 then
    some (Char.ofNat (0x10000 + (r1 - 0xD800) * 0x400 + (r2 - 0xDC00)))
  else none

def replacementChar : Char := Char.ofNat 0xFFFD

/-- The character a one-letter escape `\e` stands for. -/
def escapeOf : Char → Option Char
  | '"' => some '"'
  | '\\' => some '\\'
  | '/' => some '/'
  | 'b' => some '\x08'
  | 'f' => some '\x0c'
  | 'n' => some '\n'
  | 'r' => some '\r'
  | 't' => some '\t'
  | _ => none

/-- The character of `\uXXXX` with code `r`, and the input after it: a high surrogate followed by
the `\uXXXX` of a low one makes one character; any other surrogate is `U+FFFD`. -/
def unicodeEscape (r : Nat) (rest : List Char) : Char × List Char :=
  if isSurrogate r then
    match rest with
    | '\\' :: 'u' :: a :: b :: c :: d :: rest' =>
      match (getu4 a b c d).bind (decodeSurrogates r) with
      | some ch => (ch, rest')
      | none => (replacementChar, rest)
    | _ => (replacementChar, rest)
  else (Char.ofNat r, rest)

/-- After a `\`: the character the escape stands for, and the input after it (`unquote`). -/
def parseEscape : List Char → Option (Char × List Char)
  | [] => none
  | e :: rest =>
    if e = 'u' then
      match rest with
      | a :: b :: c :: d :: rest' => (getu4 a b c d).map fun r => unicodeEscape r rest'
      | _ => none
    else (escapeOf e).map fun ch => (ch, rest)

theorem unicodeEscape_length (r : Nat) (rest : List Char) :
    (unicodeEscape r rest).2.length ≤ rest.length := by
  unfold unicodeEscape
  split_ifs
  · split
    · split <;> simp only [List.length_cons] <;> omega
    · exact Nat.le_refl _
  · exact Nat.le_refl _

theorem parseEscape_length {cs rest : List Char} {ch : Char} (h : parseEscape cs = some (ch, rest)) :
    rest.length < cs.length := by
  cases cs with
  | nil => cases h
  | cons e cs =>
    simp only [parseEscape] at h
    split_ifs at h
    · split at h
      · rename_i a b c d rest'
        obtain ⟨r, -, hr⟩ := Option.map_eq_some'.mp h
        have := unicodeEscape_length r rest'
        rw [hr] at this
        dsimp only at this
        simp only [List.length_cons]
        omega
      · cases h
    · obtain ⟨_, -, h⟩ := Option.map_eq_some'.mp h
      cases h
      simp

/-- `unquote`: the characters of a string literal after its opening quote, up to its closing
quote, and the input after it. -/
def parseStringBody (acc : List Char) : List Char → Option (List Char × List Char)
  | [] => none
  | c :: rest =>
    if c = '"' then some (acc, rest)
    else if c = '\\' then
      match h : parseEscape rest with
      | some (ch, rest') =>
        have : rest'.length < rest.length := parseEscape_length h
        parseStringBody (acc ++ [ch]) rest'
      | none => none
    else if c.toNat < 0x20 then none
    else parseStringBody (acc ++ [c]) rest
termination_by cs => cs.length

/-- A member's value in a `map[string]string`: a string, or `null`, which leaves `""`. -/
def parseMemberValue : List Char → Option (String × List Char)
  | '"' :: rest => (parseStringBody [] rest).map fun r => (⟨r.1⟩, r.2)
  | 'n' :: 'u' :: 'l' :: 'l' :: rest => some ("", rest)
  | _ => none

/-- The members of an object after its `{`, each set in `m`, and the input after its `}`. -/
def parseMembers : Nat → Props → List Char → Option (Props × List Char)
  | 0, _, _ => none
  | fuel + 1, m, cs =>
    match skipSpace cs with
    | '"' :: rest =>
      match parseStringBody [] rest with
      | some (k, rest) =>
        match skipSpace rest with
        | ':' :: rest =>
          match parseMemberValue (skipSpace rest) with
          | some (v, rest) =>
            match skipSpace rest with
            | ',' :: rest => parseMembers fuel (m.insert ⟨k⟩ v) rest
            | '}' :: rest => some (m.insert ⟨k⟩ v, rest)
            | _ => none
          | none => none
        | _ => none
      | none => none
    | _ => none

/-- `json.Unmarshal(data, &m)`; `none` is an error. -/
def unmarshalProps (m : Props) (data : String) : Option Props :=
  match skipSpace data.data with
  | '{' :: rest =>
    match skipSpace rest with
    | '}' :: rest => if skipSpace rest = [] then some m else none
    | _ =>
      match parseMembers data.length m rest with
      | some (m, rest) => if skipSpace rest = [] then some m else none
      | none => none
  | 'n' :: 'u' :: 'l' :: 'l' :: rest => if skipSpace rest = [] then some Props.empty else none
  | _ => none

/-! ## Strings read back -/

theorem hexVal_hexDigit : ∀ d, d < 16 → hexVal (hexDigit d) = some d := by decide

theorem getu4_hexEscape {n : Nat} (h : n < 0x10000) :
    getu4 (hexDigit (n / 4096 % 16)) (hexDigit (n / 256 % 16)) (hexDigit (n / 16 % 16))
      (hexDigit (n % 16)) = some n := by
  simp only [getu4, hexVal_hexDigit _ (Nat.mod_lt _ (by decide : 16 > 0))]
  congr 1
  omega

theorem parseStringBody_escape {acc rest rest' : List Char} {ch : Char}
    (h : parseEscape rest = some (ch, rest')) :
    parseStringBody acc ('\\' :: rest) = parseStringBody (acc ++ [ch]) rest' := by
  rw [parseStringBody, if_neg (by decide), if_pos rfl]
  split <;> simp_all

theorem parseStringBody_escapeChar (c : Char) (acc more : List Char) :
    parseStringBody acc (escapeChar c ++ more) = parseStringBody (acc ++ [c]) more := by
  unfold escapeChar
  split_ifs with h₁ h₂ h₃ h₄
  · rcases h₁ with rfl | rfl <;> exact parseStringBody_escape rfl
  · subst h₂; exact parseStringBody_escape rfl
  · subst h₃; exact parseStringBody_escape rfl
  · have hlt : c.toNat < 0xD800 := by
      rcases h₄ with h | rfl | rfl | rfl | h | h <;> first | decide | omega
    have hs : isSurrogate c.toNat = false := by simp [isSurrogate]; omega
    refine parseStringBody_escape ?_
    simp [parseEscape, getu4_hexEscape (by omega : c.toNat < 0x10000), unicodeEscape, hs]
  · push_neg at h₁ h₄
    rw [List.singleton_append, parseStringBody, if_neg h₁.2, if_neg h₁.1, if_neg (by omega)]

theorem parseStringBody_encode (s : List Char) :
    ∀ acc rest, parseStringBody acc (s.flatMap escapeChar ++ '"' :: rest) = some (acc ++ s, rest) := by
  induction s with
  | nil => intro acc rest; simp [parseStringBody]
  | cons c s ih =>
    intro acc rest
    rw [List.flatMap_cons, List.append_assoc, parseStringBody_escapeChar, ih, List.append_assoc,
      List.singleton_append]

theorem parseMemberValue_encodeString (v : String) (more : List Char) :
    parseMemberValue (encodeString v ++ more) = some (v, more) := by
  simp [encodeString, parseMemberValue, parseStringBody_encode]

/-! ## Maps read back -/

theorem skipSpace_cons {c : Char} (h : isSpace c = false) (l : List Char) :
    skipSpace (c :: l) = c :: l := by
  simp [skipSpace, List.dropWhile, h]

theorem encodeString_append (s : String) (more : List Char) :
    encodeString s ++ more = '"' :: (s.data.flatMap escapeChar ++ '"' :: more) := by
  simp [encodeString]

theorem skipSpace_encodeString (s : String) (more : List Char) :
    skipSpace (encodeString s ++ more) = encodeString s ++ more := by
  rw [encodeString_append, skipSpace_cons (rfl : isSpace '"' = false)]

theorem parseMembers_member (fuel : Nat) (m : Props) (k v : String) (more : List Char) :
    parseMembers (fuel + 1) m (encodeString k ++ ':' :: encodeString v ++ more) =
      match skipSpace more with
      | ',' :: rest => parseMembers fuel (m.insert k v) rest
      | '}' :: rest => some (m.insert k v, rest)
      | _ => none := by
  rw [List.append_assoc, encodeString_append, parseMembers]
  simp only [skipSpace_cons (rfl : isSpace '"' = false), parseStringBody_encode, List.nil_append,
    List.cons_append, skipSpace_cons (rfl : isSpace ':' = false), skipSpace_encodeString,
    parseMemberValue_encodeString]

theorem parseMembers_encodeMembers :
    ∀ (es : List (String × String)) (fuel : Nat) (m : Props) (rest : List Char),
      es ≠ [] → es.length ≤ fuel →
      parseMembers fuel m (encodeMembers es ++ '}' :: rest) =
        some (es.foldl (fun m e => m.insert e.1 e.2) m, rest)
  | [], _, _, _, h, _ => absurd rfl h
  | _ :: _, 0, _, _, _, hl => absurd hl (by simp)
  | [(k, v)], fuel + 1, m, rest, _, _ => by
    rw [encodeMembers, parseMembers_member, skipSpace_cons (rfl : isSpace '}' = false)]
    rfl
  | (k, v) :: e :: es, fuel + 1, m, rest, _, hl => by
    rw [encodeMembers, List.append_assoc, List.cons_append, parseMembers_member,
      skipSpace_cons (rfl : isSpace ',' = false)]
    exact parseMembers_encodeMembers (e :: es) fuel _ rest (List.cons_ne_nil _ _)
      (by simp only [List.length_cons] at hl ⊢; omega)

theorem insertEntry_of_lt {k v : String} :
    ∀ {l : List (String × String)}, (∀ e ∈ l, e.1 < k) → insertEntry k v l = l ++ [(k, v)]
  | [], _ => rfl
  | (k', v') :: rest, h => by
    have hk : k' < k := h _ (List.mem_cons_self _ _)
    rw [insertEntry, if_neg (lt_asymm hk), if_neg (ne_of_gt hk),
      insertEntry_of_lt fun e he => h e (List.mem_cons_of_mem _ he)]
    rfl

theorem foldl_insertEntry :
    ∀ (l acc : List (String × String)), ((acc ++ l).map Prod.fst).Chain' (· < ·) →
      l.foldl (fun es e => insertEntry e.1 e.2 es) acc = acc ++ l
  | [], acc, _ => by simp
  | (k, v) :: l, acc, h => by
    have hlt : ∀ e ∈ acc, e.1 < k := by
      have hp := List.chain'_iff_pairwise.mp h
      rw [List.map_append, List.pairwise_append] at hp
      exact fun e he => hp.2.2 _ (List.mem_map_of_mem _ he) _ (List.mem_cons_self _ _)
    rw [List.foldl_cons, insertEntry_of_lt hlt, foldl_insertEntry l, List.append_assoc]
    · rfl
    · rwa [List.append_assoc]

theorem Props.entries_foldl_insert :
    ∀ (l : List (String × String)) (m : Props),
      (l.foldl (fun m e => m.insert e.1 e.2) m).entries =
        l.foldl (fun es e => insertEntry e.1 e.2 es) m.entries
  | [], _ => rfl
  | e :: l, m => Props.entries_foldl_insert l (m.insert e.1 e.2)

theorem Props.ext_entries {p q : Props} (h : p.entries = q.entries) : p = q := by
  cases p; cases q; cases h; rfl

theorem Props.foldl_insert_entries (p : Props) :
    p.entries.foldl (fun m e => m.insert e.1 e.2) Props.empty = p :=
  Props.ext_entries <| (Props.entries_foldl_insert _ _).trans <|
    foldl_insertEntry p.entries [] (List.chain'_map _ |>.mpr p.sorted)

theorem length_le_encodeMembers : ∀ es : List (String × String), es.length ≤ (encodeMembers es).length
  | [] => Nat.le_refl _
  | [(k, v)] => by simp [encodeMembers, encodeString]
  | (k, v) :: e :: es => by
    have := length_le_encodeMembers (e :: es)
    simp only [encodeMembers, List.length_append, List.length_cons] at this ⊢
    omega

theorem encodeMembers_cons_append (e : String × String) (es : List (String × String))
    (more : List Char) : ∃ t, encodeMembers (e :: es) ++ more = '"' :: t := by
  obtain ⟨k, v⟩ := e
  cases es <;> exact ⟨_, rfl⟩

theorem unmarshalProps_marshalProps_into (m p : Props) :
    unmarshalProps m (marshalProps p) = some (p.entries.foldl (fun m e => m.insert e.1 e.2) m) := by
  have hlen : p.entries.length ≤ (marshalProps p).length := by
    have := length_le_encodeMembers p.entries
    simp only [marshalProps, String.length, List.length_cons, List.length_append] at this ⊢
    omega
  unfold unmarshalProps
  rw [show (marshalProps p).data = '{' :: (encodeMembers p.entries ++ ['}']) from rfl,
    skipSpace_cons (rfl : isSpace '{' = false)]
  simp only []
  cases hp : p.entries with
  | nil => rfl
  | cons e es =>
    obtain ⟨t, ht⟩ := encodeMembers_cons_append e es ['}']
    rw [hp] at hlen
    rw [ht, skipSpace_cons (rfl : isSpace '"' = false)]
    split
    · rename_i heq
      simp at heq
    · rw [← ht, parseMembers_encodeMembers _ _ _ [] (List.cons_ne_nil _ _) hlen]
      rfl

/-- Decoding what `json.Marshal` wrote gives the map back. -/
theorem unmarshalProps_marshalProps (p : Props) :
    unmarshalProps Props.empty (marshalProps p) = some p := by
  rw [unmarshalProps_marshalProps_into, Props.foldl_insert_entries]

/-! ## A command object and a string

`Command.Marshal`, `metafora.UnmarshalCommand` and the JSON of `statemachine.Message` are not in
`src`. The codecs below show that the round-trip laws the coordinator's modules assume are met:
a command as the spec's object `{"command": name, "parameters": {…}}`, its parameters in the
order of the list and a parameter that is not a string written as `null`; a message as a JSON
string. -/

/-- A parameter's value: a string literal, or `null` for any value that is not a string. -/
def encodeParam : Param → List Char
  | .str s => encodeString s
  | .other => ['n', 'u', 'l', 'l']

def encodeParams : List (String × Param) → List Char
  | [] => []
  | [(k, v)] => encodeString k ++ ':' :: encodeParam v
  | (k, v) :: e :: es => encodeString k ++ ':' :: encodeParam v ++ ',' :: encodeParams (e :: es)

def marshalCommand (c : Command) : String :=
  ⟨'{' :: encodeParam (.str "command") ++ ':' :: encodeParam (.str c.name) ++ ',' ::
    encodeParam (.str "parameters") ++ ':' :: '{' :: encodeParams c.parameters ++ ['}', '}']⟩

def parseParam : List Char → Option (Param × List Char)
  | '"' :: rest => (parseStringBody [] rest).map fun r => (.str ⟨r.1⟩, r.2)
  | 'n' :: 'u' :: 'l' :: 'l' :: rest => some (.other, rest)
  | _ => none

/-- The members of a parameters object after its `{`, and the input after its `}`. -/
def parseParams : Nat → List Char → Option (List (String × Param) × List Char)
  | 0, _ => none
  | fuel + 1, cs =>
    match parseParam cs with
    | some (.str k, ':' :: rest) =>
      match parseParam rest with
      | some (v, ',' :: rest) => (parseParams fuel rest).map fun r => ((k, v) :: r.1, r.2)
      | some (v, '}' :: rest) => some ([(k, v)], rest)
      | _ => none
    | _ => none

def unmarshalCommand (data : String) : Option Command :=
  match data.data with
  | '{' :: rest =>
    match parseParam rest with
    | some (.str "command", ':' :: rest) =>
      match parseParam rest with
      | some (.str name, ',' :: rest) =>
        match parseParam rest with
        | some (.str "parameters", ':' :: '{' :: '}' :: rest) =>
          if rest = ['}'] then some ⟨name, []⟩ else none
        | some (.str "parameters", ':' :: '{' :: rest) =>
          match parseParams data.length rest with
          | some (ps, ['}']) => some ⟨name, ps⟩
          | _ => none
        | _ => none
      | _ => none
    | _ => none
  | _ => none

def unmarshalString (data : String) : Except String String :=
  match parseParam data.data with
  | some (.str s, []) => .ok s
  | _ => .error "json: cannot unmarshal into string"

theorem parseParam_encodeParam (v : Param) (more : List Char) :
    parseParam (encodeParam v ++ more) = some (v, more) := by
  cases v <;> simp [encodeParam, encodeString, parseParam, parseStringBody_encode]

theorem length_le_encodeParams :
    ∀ ps : List (String × Param), ps.length ≤ (encodeParams ps).length
  | [] => Nat.le_refl _
  | [(k, v)] => by simp [encodeParams, encodeString]
  | (k, v) :: e :: es => by
    have := length_le_encodeParams (e :: es)
    simp only [encodeParams, List.length_append, List.length_cons] at this ⊢
    omega

theorem parseParams_encodeParams :
    ∀ (ps : List (String × Param)) (fuel : Nat) (rest : List Char), ps ≠ [] → ps.length ≤ fuel →
      parseParams fuel (encodeParams ps ++ '}' :: rest) = some (ps, rest)
  | [], _, _, h, _ => absurd rfl h
  | _ :: _, 0, _, _, hl => absurd hl (by simp)
  | [(k, v)], fuel + 1, rest, _, _ => by
    simp only [encodeParams, parseParams, List.append_assoc, List.cons_append, ← encodeParam.eq_1,
      parseParam_encodeParam]
  | (k, v) :: e :: es, fuel + 1, rest, _, hl => by
    rw [encodeParams, parseParams]
    simp only [List.append_assoc, List.cons_append, ← encodeParam.eq_1, parseParam_encodeParam]
    rw [parseParams_encodeParams (e :: es) fuel rest (List.cons_ne_nil _ _)
      (by simp only [List.length_cons] at hl ⊢; omega)]
    rfl

/-- Decoding the command object gives the command back. -/
theorem unmarshalCommand_marshalCommand (c : Command) :
    unmarshalCommand (marshalCommand c) = some c := by
  obtain ⟨name, ps⟩ := c
  have hlen : ps.length ≤ (marshalCommand ⟨name, ps⟩).length := by
    have := length_le_encodeParams ps
    simp only [marshalCommand, String.length, List.length_cons, List.length_append] at this ⊢
    omega
  unfold unmarshalCommand
  rw [show (marshalCommand ⟨name, ps⟩).data = '{' :: encodeParam (.str "command") ++ ':' ::
    encodeParam (.str name) ++ ',' :: encodeParam (.str "parameters") ++ ':' :: '{' ::
      encodeParams ps ++ ['}', '}'] from rfl]
  generalize (marshalCommand ⟨name, ps⟩).length = n at hlen
  simp only [List.append_assoc, List.cons_append, parseParam_encodeParam]
  cases ps with
  | nil => rfl
  | cons p ps =>
    obtain ⟨t, ht⟩ : ∃ t, encodeParams (p :: ps) ++ ['}', '}'] = '"' :: t := by
      obtain ⟨k, v⟩ := p
      cases ps <;> exact ⟨_, rfl⟩
    rw [ht]
    show (match parseParams n ('"' :: t) with
      | some (ps, ['}']) => some (Command.mk name ps)
      | _ => none) = _
    rw [← ht, parseParams_encodeParams _ _ _ (List.cons_ne_nil _ _) hlen]
    rfl

theorem unmarshalString_encodeString (s : String) : unmarshalString ⟨encodeString s⟩ = .ok s := by
  have h := parseParam_encodeParam (.str s) []
  rw [List.append_nil] at h
  simp only [unmarshalString, encodeParam] at h ⊢
  rw [h]

end Metafora
