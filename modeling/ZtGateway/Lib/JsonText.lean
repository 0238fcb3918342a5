import ZtGateway.Lib.JsNumber

/-! JSON text as JavaScript writes and reads it: `JSON.stringify` of an object whose
values are numbers and strings, and `JSON.parse`. A string is the list of its UTF-16
units; a lexer that takes one character at a time feeds a parser with an explicit stack. -/

namespace ZTG

namespace JsonText

/-- how finite numbers are written, and how a number token is read -/
structure Numbers where
  text : ℚ → List Char
  value : List Char → JsNum

def unitsOf (c : Char) : List ℕ :=
  let n := c.toNat
  if n < 0x10000 then [n]
  else [0xD800 + (n - 0x10000) / 0x400, 0xDC00 + (n - 0x10000) % 0x400]

def units (s : List Char) : List ℕ := s.flatMap unitsOf

def hexDigit (n : ℕ) : Char := "0123456789abcdef".toList.getD n '0'

/-- `QuoteJSONString` on one character -/
def quoteChar (c : Char) : List Char :=
  if c = '"' then ['\\', '"']
  else if c = '\\' then ['\\', '\\']
  else if c = '\x08' then ['\\', 'b']
  else if c = '\t' then ['\\', 't']
  else if c = '\n' then ['\\', 'n']
  else if c = '\x0c' then ['\\', 'f']
  else if c = '\r' then ['\\', 'r']
  else if c.toNat < 0x20 then
    ['\\', 'u', '0', '0', hexDigit (c.toNat / 16), hexDigit (c.toNat % 16)]
  else [c]

def quote (s : List Char) : List Char := '"' :: (s.flatMap quoteChar ++ ['"'])

/-- a value that is neither an array nor an object -/
inductive Prim where
  | num (n : JsNum)
  | str (s : List Char)

/-- NaN and the infinities are written as null -/
def Prim.text (nt : Numbers) : Prim → List Char
  | .num (.num q) => nt.text q
  | .num _ => "null".toList
  | .str s => quote s

def fieldsText (nt : Numbers) : List (List Char × Prim) → List Char
  | [] => ['\x7d']
  | [(k, v)] => quote k ++ ':' :: (v.text nt ++ ['\x7d'])
  | (k, v) :: rest => quote k ++ ':' :: (v.text nt ++ ',' :: fieldsText nt rest)

def stringify (nt : Numbers) (fields : List (List Char × Prim)) : List Char :=
  '\x7b' :: fieldsText nt fields

inductive Token where
  | openObj
  | closeObj
  | openArr
  | closeArr
  | colon
  | comma
  | str (units : List ℕ)
  | num (text : List Char)
  | word (text : List Char)
  deriving DecidableEq

def digit (c : Char) : Bool := '0'.toNat ≤ c.toNat && c.toNat ≤ '9'.toNat

def letter (c : Char) : Bool := 'a'.toNat ≤ c.toNat && c.toNat ≤ 'z'.toNat

def numberChar (c : Char) : Bool :=
  digit c || c = '-' || c = '+' || c = '.' || c = 'e' || c = 'E'

/-- the exponent of a number, or nothing -/
def exponent : List Char → Bool
  | [] => true
  | e :: rest =>
    (e = 'e' || e = 'E') &&
      match rest with
      | s :: ds => if s = '+' || s = '-' then ds ≠ [] && ds.all digit else (s :: ds).all digit
      | [] => false

/-- the fraction of a number, if any, and what follows -/
def fraction : List Char → Bool
  | '.' :: d :: rest => digit d && exponent (rest.dropWhile digit)
  | rest => exponent rest

def integer : List Char → Bool
  | '0' :: rest => fraction rest
  | d :: rest => digit d && fraction (rest.dropWhile digit)
  | [] => false

/-- a number of the JSON grammar -/
def isNumber (s : List Char) : Bool :=
  s.all numberChar &&
    match s with
    | '-' :: rest => integer rest
    | rest => integer rest

def isWord (s : List Char) : Bool :=
  s = "true".toList || s = "false".toList || s = "null".toList

def escaped : Char → Option ℕ
  | '"' => some 0x22
  | '\\' => some 0x5C
  | '/' => some 0x2F
  | 'b' => some 8
  | 'f' => some 12
  | 'n' => some 10
  | 'r' => some 13
  | 't' => some 9
  | _ => none

def hexValue (c : Char) : Option ℕ :=
  if digit c then some (c.toNat - '0'.toNat)
  else if 'a'.toNat ≤ c.toNat && c.toNat ≤ 'f'.toNat then some (c.toNat - 'a'.toNat + 10)
  else if 'A'.toNat ≤ c.toNat && c.toNat ≤ 'F'.toNat then some (c.toNat - 'A'.toNat + 10)
  else none

/-- where the lexer is -/
inductive Lex where
  | start
  | str (units : List ℕ)
  | escape (units : List ℕ)
  /-- `\u` with `seen` digits of value `value` -/
  | hex (units : List ℕ) (seen value : ℕ)
  | num (text : List Char)
  | word (text : List Char)

/-- a character between tokens -/
def lexStart (c : Char) : Option (List Token × Lex) :=
  if c = ' ' || c = '\t' || c = '\n' || c = '\r' then some ([], .start)
  else if c = '\x7b' then some ([.openObj], .start)
  else if c = '\x7d' then some ([.closeObj], .start)
  else if c = '[' then some ([.openArr], .start)
  else if c = ']' then some ([.closeArr], .start)
  else if c = ':' then some ([.colon], .start)
  else if c = ',' then some ([.comma], .start)
  else if c = '"' then some ([], .str [])
  else if digit c || c = '-' then some ([], .num [c])
  else if letter c then some ([], .word [c])
  else none

def lexStep : Lex → Char → Option (List Token × Lex)
  | .start, c => lexStart c
  | .str acc, c =>
    if c = '"' then some ([.str acc], .start)
    else if c = '\\' then some ([], .escape acc)
    else if c.toNat < 0x20 then none
    else some ([], .str (acc ++ unitsOf c))
  | .escape acc, c =>
    if c = 'u' then some ([], .hex acc 0 0)
    else (escaped c).map fun n => ([], .str (acc ++ [n]))
  | .hex acc seen value, c =>
    (hexValue c).map fun d =>
      if seen = 3 then ([], .str (acc ++ [value * 16 + d]))
      else ([], .hex acc (seen + 1) (value * 16 + d))
  | .num acc, c =>
    if numberChar c then some ([], .num (acc ++ [c]))
    else if isNumber acc then (lexStart c).map fun r => (.num acc :: r.1, r.2)
    else none
  | .word acc, c =>
    if letter c then some ([], .word (acc ++ [c]))
    else if isWord acc then (lexStart c).map fun r => (.word acc :: r.1, r.2)
    else none

def lexEnd : Lex → Option (List Token)
  | .start => some []
  | .num acc => if isNumber acc then some [.num acc] else none
  | .word acc => if isWord acc then some [.word acc] else none
  | _ => none

def lexFrom (st : Lex) : List Char → Option (List Token)
  | [] => lexEnd st
  | c :: rest =>
    match lexStep st c with
    | none => none
    | some (ts, st) => (lexFrom st rest).map (ts ++ ·)

inductive Value where
  | null
  | bool (b : Bool)
  | num (n : JsNum)
  | str (units : List ℕ)
  | arr (items : List Value)
  | obj (fields : List (List ℕ × Value))

/-- an array or object that is still open -/
inductive Frame where
  | arr (items : List Value)
  | obj (fields : List (List ℕ × Value)) (key : List ℕ)

/-- what the parser expects next, inside the open frames -/
inductive Expect where
  | value (stack : List Frame)
  | first (stack : List Frame)
  | key (stack : List Frame) (fields : List (List ℕ × Value)) (first : Bool)
  | colon (stack : List Frame) (fields : List (List ℕ × Value)) (key : List ℕ)
  | after (stack : List Frame) (v : Value)

def wordValue (s : List Char) : Value :=
  if s = "true".toList then .bool true else if s = "false".toList then .bool false else .null

def startValue (nt : Numbers) (stack : List Frame) : Token → Option Expect
  | .str u => some (.after stack (.str u))
  | .num s => some (.after stack (.num (nt.value s)))
  | .word s => some (.after stack (wordValue s))
  | .openArr => some (.first stack)
  | .openObj => some (.key stack [] true)
  | _ => none

def next (nt : Numbers) : Expect → Token → Option Expect
  | .value stack, t => startValue nt stack t
  | .first stack, .closeArr => some (.after stack (.arr []))
  | .first stack, t => startValue nt (.arr [] :: stack) t
  | .key stack fields _, .str k => some (.colon stack fields k)
  | .key stack fields true, .closeObj => some (.after stack (.obj fields))
  | .colon stack fields k, .colon => some (.value (.obj fields k :: stack))
  | .after (.arr items :: stack) v, .comma => some (.value (.arr (items ++ [v]) :: stack))
  | .after (.arr items :: stack) v, .closeArr => some (.after stack (.arr (items ++ [v])))
  | .after (.obj fields k :: stack) v, .comma => some (.key stack (fields ++ [(k, v)]) false)
  | .after (.obj fields k :: stack) v, .closeObj =>
    some (.after stack (.obj (fields ++ [(k, v)])))
  | _, _ => none

/-- `none` is a SyntaxError -/
def parse (nt : Numbers) (s : List Char) : Option Value :=
  match (lexFrom .start s).bind fun ts => ts.foldlM (next nt) (.value []) with
  | some (.after [] v) => some v
  | _ => none

/-- property access: the last of several fields with one key counts -/
def Value.get (v : Value) (key : List Char) : Option Value :=
  match v with
  | .obj fields => fields.reverse.lookup (units key)
  | _ => none

theorem lexFrom_cons {st : Lex} {c : Char} (ts : List Token) (st' : Lex)
    (h : lexStep st c = some (ts, st')) (rest : List Char) :
    lexFrom st (c :: rest) = (lexFrom st' rest).map (ts ++ ·) := by
  rw [lexFrom, h]

theorem lexFrom_quiet {st : Lex} {c : Char} (st' : Lex) (h : lexStep st c = some ([], st'))
    (rest : List Char) : lexFrom st (c :: rest) = lexFrom st' rest := by
  rw [lexFrom_cons [] st' h]
  exact Option.map_id'

/-- Inside a string, the lexer reads what `quoteChar` wrote as the units of the character. -/
theorem lexFrom_quoteChar (acc : List ℕ) (c : Char) (rest : List Char) :
    lexFrom (.str acc) (quoteChar c ++ rest) = lexFrom (.str (acc ++ unitsOf c)) rest := by
  have hescape : ∀ {d : Char} {n : ℕ}, d ≠ 'u' → escaped d = some n →
      lexFrom (.str acc) ('\\' :: d :: rest) = lexFrom (.str (acc ++ [n])) rest := by
    intro d n hd hn
    have hstep : lexStep (.escape acc) d = some ([], .str (acc ++ [n])) := by
      rw [lexStep, if_neg hd, hn, Option.map_some]
    rw [lexFrom_quiet (.escape acc) rfl, lexFrom_quiet (.str (acc ++ [n])) hstep]
  fun_cases quoteChar c with
  | case1 h => subst h; exact hescape (by decide) rfl
  | case2 _ h => subst h; exact hescape (by decide) rfl
  | case3 _ _ h => subst h; exact hescape (by decide) rfl
  | case4 _ _ _ h => subst h; exact hescape (by decide) rfl
  | case5 _ _ _ _ h => subst h; exact hescape (by decide) rfl
  | case6 _ _ _ _ _ h => subst h; exact hescape (by decide) rfl
  | case7 _ _ _ _ _ _ h => subst h; exact hescape (by decide) rfl
  | case8 _ _ _ _ _ _ _ h8 =>
    have hread : ∀ n < 0x20, hexValue (hexDigit (n / 16)) = some (n / 16) ∧
        hexValue (hexDigit (n % 16)) = some (n % 16) := by decide
    obtain ⟨hhigh, hlow⟩ := hread _ h8
    have hunits : unitsOf c = [((0 * 16 + 0) * 16 + c.toNat / 16) * 16 + c.toNat % 16] := by
      rw [unitsOf, if_pos (by omega)]
      congr 1
      omega
    simp only [List.cons_append, List.nil_append]
    have hthird : lexStep (.hex acc 2 0) (hexDigit (c.toNat / 16)) =
        some ([], .hex acc 3 (c.toNat / 16)) := by
      rw [lexStep, hhigh, Option.map_some, if_neg (by decide), Nat.zero_mul, Nat.zero_add]
    have hlast : lexStep (.hex acc 3 (c.toNat / 16)) (hexDigit (c.toNat % 16)) =
        some ([], .str (acc ++ unitsOf c)) := by
      rw [lexStep, hlow, Option.map_some, if_pos rfl, hunits, Nat.zero_mul, Nat.zero_add]
    rw [lexFrom_quiet (.escape acc) rfl, lexFrom_quiet (.hex acc 0 0) rfl,
      lexFrom_quiet (.hex acc 1 0) rfl, lexFrom_quiet (.hex acc 2 0) rfl,
      lexFrom_quiet _ hthird, lexFrom_quiet _ hlast]
  | case9 h1 h2 _ _ _ _ _ h8 =>
    refine lexFrom_quiet _ ?_ rest
    rw [lexStep, if_neg h1, if_neg h2, if_neg h8]

theorem lexFrom_quote (s rest : List Char) :
    lexFrom .start (quote s ++ rest) = (lexFrom .start rest).map (.str (units s) :: ·) := by
  have hchars : ∀ acc, lexFrom (.str acc) (s.flatMap quoteChar ++ '"' :: rest) =
      (lexFrom .start rest).map (.str (acc ++ units s) :: ·) := by
    induction s with
    | nil =>
      intro acc
      rw [List.flatMap_nil, List.nil_append,
        lexFrom_cons [.str acc] .start (by simp [lexStep])]
      simp [units]
    | cons c s ih =>
      intro acc
      rw [List.flatMap_cons, List.append_assoc, lexFrom_quoteChar, ih, List.append_assoc]
      rfl
  rw [quote, List.cons_append, List.append_assoc, lexFrom_quiet (.str []) (by rfl)]
  exact hchars []

/-- A character that ends a number or a word, and is a token by itself. -/
structure Delimits (c : Char) (t : Token) : Prop where
  number : numberChar c = false
  word : letter c = false
  token : lexStart c = some ([t], .start)

theorem delimits_comma : Delimits ',' .comma := ⟨rfl, rfl, rfl⟩

theorem delimits_close : Delimits '\x7d' .closeObj := ⟨rfl, rfl, rfl⟩

theorem lexFrom_delimiter {c : Char} {t : Token} (hc : Delimits c t) (rest : List Char) :
    lexFrom .start (c :: rest) = (lexFrom .start rest).map (t :: ·) := by
  have hstep : lexStep .start c = some ([t], .start) := hc.token
  rw [lexFrom_cons [t] .start hstep]
  rfl

theorem lexStart_number {d : Char} {s : List Char} (hs : isNumber (d :: s) = true) :
    lexStart d = some ([], .num [d]) := by
  have hd : digit d = true ∨ d = '-' := by
    unfold isNumber at hs
    have hint := (Bool.and_eq_true_iff.mp hs).2
    split at hint
    · rename_i heq
      exact .inr (List.cons.inj heq).1
    · unfold integer at hint
      split at hint
      · rename_i heq
        rw [(List.cons.inj heq).1]
        exact .inl rfl
      · rename_i heq
        rw [(List.cons.inj heq).1]
        exact .inl (Bool.and_eq_true_iff.mp hint).1
      · rename_i heq
        cases heq
  rcases hd with hd | rfl
  · have hne : ∀ c, digit c = false → d ≠ c := by
      rintro c hc rfl
      rw [hc] at hd
      cases hd
    simp [lexStart, hd, hne ' ' rfl, hne '\t' rfl, hne '\n' rfl, hne '\r' rfl, hne '\x7b' rfl,
      hne '\x7d' rfl, hne '[' rfl, hne ']' rfl, hne ':' rfl, hne ',' rfl, hne '"' rfl]
  · rfl

theorem lexFrom_number {s : List Char} (hs : isNumber s = true) {c : Char} {t : Token}
    (hc : Delimits c t) (rest : List Char) :
    lexFrom .start (s ++ c :: rest) = (lexFrom .start rest).map fun ts => .num s :: t :: ts := by
  have hall : ∀ d ∈ s, numberChar d = true := by
    unfold isNumber at hs
    exact List.all_eq_true.mp (Bool.and_eq_true_iff.mp hs).1
  have hmore : ∀ (r acc : List Char), (∀ d ∈ r, numberChar d = true) → acc ++ r = s →
      lexFrom (.num acc) (r ++ c :: rest) =
        (lexFrom .start rest).map fun ts => .num s :: t :: ts := by
    intro r
    induction r with
    | nil =>
      rintro acc - rfl
      rw [List.append_nil] at hs
      rw [List.nil_append, lexFrom_cons [.num acc, t] .start
        (by simp [lexStep, hc.number, hs, hc.token]), List.append_nil]
      rfl
    | cons d r ih =>
      intro acc hr hacc
      rw [List.cons_append, lexFrom_quiet (.num (acc ++ [d]))
        (by simp [lexStep, hr d (by simp)])]
      exact ih _ (fun x hx => hr x (by simp [hx])) (by simpa using hacc)
  cases s with
  | nil => simp [isNumber, integer] at hs
  | cons d r =>
    have hstart : lexStep .start d = some ([], .num [d]) := lexStart_number hs
    rw [List.cons_append, lexFrom_quiet (.num [d]) hstart]
    exact hmore r [d] (fun x hx => hall x (by simp [hx])) rfl

def Prim.token (nt : Numbers) : Prim → Token
  | .num (.num q) => .num (nt.text q)
  | .num _ => .word "null".toList
  | .str s => .str (units s)

/-- what reading back gives -/
def Prim.value (nt : Numbers) : Prim → Value
  | .num (.num q) => .num (nt.value (nt.text q))
  | .num _ => .null
  | .str s => .str (units s)

/-- a finite number is written as a number of the grammar -/
def Prim.Writable (nt : Numbers) : Prim → Prop
  | .num (.num q) => isNumber (nt.text q) = true
  | _ => True

theorem lexFrom_null {c : Char} {t : Token} (hc : Delimits c t) (rest : List Char) :
    lexFrom .start ("null".toList ++ c :: rest) =
      (lexFrom .start rest).map fun ts => .word "null".toList :: t :: ts := by
  have hword : isWord ['n', 'u', 'l', 'l'] = true := rfl
  show lexFrom .start ('n' :: 'u' :: 'l' :: 'l' :: c :: rest) = _
  rw [lexFrom_quiet (.word ['n']) rfl, lexFrom_quiet (.word ['n', 'u']) rfl,
    lexFrom_quiet (.word ['n', 'u', 'l']) rfl, lexFrom_quiet (.word ['n', 'u', 'l', 'l']) rfl,
    lexFrom_cons [.word ['n', 'u', 'l', 'l'], t] .start
      (by simp [lexStep, hc.word, hword, hc.token])]
  rfl

theorem lexFrom_prim {nt : Numbers} {v : Prim} (hv : v.Writable nt) {c : Char} {t : Token}
    (hc : Delimits c t) (rest : List Char) : lexFrom .start (v.text nt ++ c :: rest) =
      (lexFrom .start rest).map fun ts => v.token nt :: t :: ts := by
  match v, hv with
  | .num (.num q), hv => exact lexFrom_number hv hc rest
  | .num .nan, _ | .num .posInf, _ | .num .negInf, _ => exact lexFrom_null hc rest
  | .str s, _ =>
    show lexFrom .start (quote s ++ c :: rest) = _
    rw [lexFrom_quote, lexFrom_delimiter hc, Option.map_map]
    rfl

def fieldsTokens (nt : Numbers) : List (List Char × Prim) → List Token
  | [] => [.closeObj]
  | [(k, v)] => [.str (units k), .colon, v.token nt, .closeObj]
  | (k, v) :: rest =>
    .str (units k) :: .colon :: v.token nt :: .comma :: fieldsTokens nt rest

theorem lexFrom_fields {nt : Numbers} {fields : List (List Char × Prim)}
    (h : ∀ x ∈ fields, x.2.Writable nt) :
    lexFrom .start (fieldsText nt fields) = some (fieldsTokens nt fields) := by
  have hcolon : Delimits ':' .colon := ⟨rfl, rfl, rfl⟩
  fun_induction fieldsText nt fields with
  | case1 => rfl
  | case2 k v =>
    have hv : v.Writable nt := h (k, v) (by simp)
    rw [lexFrom_quote, lexFrom_delimiter hcolon, lexFrom_prim hv delimits_close]
    rfl
  | case3 k v rest hrest ih =>
    have hv : v.Writable nt := h (k, v) (by simp)
    rw [lexFrom_quote, lexFrom_delimiter hcolon, lexFrom_prim hv delimits_comma,
      ih fun x hx => h x (by simp [hx])]
    cases rest with
    | nil => exact absurd rfl hrest
    | cons x rest => rfl

theorem startValue_token (nt : Numbers) (stack : List Frame) (v : Prim) :
    startValue nt stack (v.token nt) = some (.after stack (v.value nt)) := by
  match v with
  | .num (.num q) | .num .nan | .num .posInf | .num .negInf | .str s => rfl

theorem foldlM_fields (nt : Numbers) {fields : List (List Char × Prim)} (h : fields ≠ [])
    (acc : List (List ℕ × Value)) (first : Bool) :
    (fieldsTokens nt fields).foldlM (next nt) (.key [] acc first) =
      some (.after [] (.obj (acc ++ fields.map fun x => (units x.1, x.2.value nt)))) := by
  fun_induction fieldsTokens nt fields generalizing acc first with
  | case1 => exact absurd rfl h
  | case2 k v =>
    simp [List.foldlM, next, startValue_token]
  | case3 k v rest hrest ih =>
    simp [List.foldlM, next, startValue_token, ih hrest]

/-- Reading a written object gives its fields back, each as it reads by itself. -/
theorem parse_stringify {nt : Numbers} {fields : List (List Char × Prim)} (hne : fields ≠ [])
    (h : ∀ x ∈ fields, x.2.Writable nt) : parse nt (stringify nt fields) =
      some (.obj (fields.map fun x => (units x.1, x.2.value nt))) := by
  have hopen : Delimits '\x7b' .openObj := ⟨rfl, rfl, rfl⟩
  have hlex : lexFrom .start (stringify nt fields) = some (.openObj :: fieldsTokens nt fields) := by
    rw [stringify, lexFrom_delimiter hopen, lexFrom_fields h]
    rfl
  have hfold := foldlM_fields nt hne [] true
  unfold parse
  rw [hlex, Option.bind_some, List.foldlM_cons]
  show (match ((fieldsTokens nt fields).foldlM (next nt) (.key [] [] true)) with
    | some (.after [] v) => some v
    | _ => none) = _
  rw [hfold]
  rfl

theorem unitsOf_append_inj {c c' : Char} {r r' : List ℕ}
    (h : unitsOf c ++ r = unitsOf c' ++ r') : c = c' ∧ r = r' := by
  have hc : c.toNat < 0xD800 ∨ 0xDFFF < c.toNat ∧ c.toNat < 0x110000 := c.valid
  have hc' : c'.toNat < 0xD800 ∨ 0xDFFF < c'.toNat ∧ c'.toNat < 0x110000 := c'.valid
  have hinj : c.toNat = c'.toNat → c = c' := fun h => Char.toNat_inj.mp h
  unfold unitsOf at h
  dsimp only at h
  split_ifs at h with h1 h2 h2
  · simp only [List.cons_append, List.nil_append, List.cons.injEq] at h
    exact ⟨hinj h.1, h.2⟩
  · simp only [List.cons_append, List.nil_append, List.cons.injEq] at h
    omega
  · simp only [List.cons_append, List.nil_append, List.cons.injEq] at h
    omega
  · simp only [List.cons_append, List.nil_append, List.cons.injEq] at h
    exact ⟨hinj (by omega), h.2.2⟩

theorem units_inj {s s' : List Char} (h : units s = units s') : s = s' := by
  induction s generalizing s' with
  | nil =>
    cases s' with
    | nil => rfl
    | cons c' s' =>
      simp only [units, List.flatMap_nil, List.flatMap_cons, unitsOf] at h
      split_ifs at h <;> simp at h
  | cons c s ih =>
    cases s' with
    | nil =>
      simp only [units, List.flatMap_nil, List.flatMap_cons, unitsOf] at h
      split_ifs at h <;> simp at h
    | cons c' s' =>
      rw [units, units, List.flatMap_cons, List.flatMap_cons] at h
      obtain ⟨rfl, hrest⟩ := unitsOf_append_inj h
      rw [ih hrest]

/-- If the value is a number, it was read from a token. -/
def NumRead (nt : Numbers) (v : Value) : Prop := ∀ n, v = .num n → ∃ text, n = nt.value text

def FieldsRead (nt : Numbers) (fields : List (List ℕ × Value)) : Prop :=
  ∀ f ∈ fields, NumRead nt f.2

def Frame.Read (nt : Numbers) : Frame → Prop
  | .arr _ => True
  | .obj fields _ => FieldsRead nt fields

/-- The numbers among the fields of every open and every finished object were read. -/
def Expect.Read (nt : Numbers) : Expect → Prop
  | .value stack | .first stack => ∀ f ∈ stack, f.Read nt
  | .key stack fields _ | .colon stack fields _ => (∀ f ∈ stack, f.Read nt) ∧ FieldsRead nt fields
  | .after stack v => (∀ f ∈ stack, f.Read nt) ∧ NumRead nt v ∧
      ∀ fields, v = .obj fields → FieldsRead nt fields

theorem startValue_read {nt : Numbers} {stack : List Frame} {t : Token} {e : Expect}
    (hstack : ∀ f ∈ stack, f.Read nt) (h : startValue nt stack t = some e) : e.Read nt := by
  cases t <;> simp only [startValue, Option.some.injEq, reduceCtorEq] at h <;> subst h
  case num s => exact ⟨hstack, fun n hn => ⟨s, (Value.num.inj hn).symm⟩, nofun⟩
  case str u => exact ⟨hstack, nofun, nofun⟩
  case word s =>
    refine ⟨hstack, fun n hn => ?_, fun fields hf => ?_⟩
    · unfold wordValue at hn
      split_ifs at hn
    · unfold wordValue at hf
      split_ifs at hf
  case openArr => exact hstack
  case openObj => exact ⟨hstack, by simp [FieldsRead]⟩

theorem FieldsRead.snoc {nt : Numbers} {fields : List (List ℕ × Value)} {k : List ℕ} {v : Value}
    (h : FieldsRead nt fields) (hv : NumRead nt v) : FieldsRead nt (fields ++ [(k, v)]) := by
  intro f hf
  rcases List.mem_append.mp hf with hf | hf
  · exact h f hf
  · obtain rfl := List.mem_singleton.mp hf
    exact hv

theorem next_read {nt : Numbers} {e e' : Expect} {t : Token} (he : e.Read nt)
    (h : next nt e t = some e') : e'.Read nt := by
  unfold next at h
  split at h
  · exact startValue_read he h
  · obtain rfl := Option.some.inj h
    exact ⟨he, nofun, nofun⟩
  · refine startValue_read (fun f hf => ?_) h
    rcases List.mem_cons.mp hf with rfl | hf
    · trivial
    · exact he f hf
  · obtain rfl := Option.some.inj h
    exact he
  · obtain rfl := Option.some.inj h
    exact ⟨he.1, nofun, fun fields hf => Value.obj.inj hf ▸ he.2⟩
  · obtain rfl := Option.some.inj h
    intro f hf
    rcases List.mem_cons.mp hf with rfl | hf
    · exact he.2
    · exact he.1 f hf
  · obtain rfl := Option.some.inj h
    simpa [Expect.Read, Frame.Read] using he.1
  · obtain rfl := Option.some.inj h
    exact ⟨fun f hf => he.1 f (List.mem_cons_of_mem _ hf), nofun, nofun⟩
  · obtain rfl := Option.some.inj h
    have hfields : FieldsRead nt _ := he.1 _ List.mem_cons_self
    exact ⟨fun f hf => he.1 f (List.mem_cons_of_mem _ hf), hfields.snoc he.2.1⟩
  · obtain rfl := Option.some.inj h
    have hfields : FieldsRead nt _ := he.1 _ List.mem_cons_self
    exact ⟨fun f hf => he.1 f (List.mem_cons_of_mem _ hf), nofun,
      fun fields hf => Value.obj.inj hf ▸ hfields.snoc he.2.1⟩
  · cases h

theorem foldlM_read {nt : Numbers} {ts : List Token} {e e' : Expect} (he : e.Read nt)
    (h : ts.foldlM (next nt) e = some e') : e'.Read nt := by
  induction ts generalizing e with
  | nil => exact Option.some.inj h ▸ he
  | cons t ts ih =>
    rw [List.foldlM_cons] at h
    obtain ⟨mid, hmid, hrest⟩ := Option.bind_eq_some_iff.mp h
    exact ih (next_read he hmid) hrest

/-- A number that a parsed object has as a field was read from a token. -/
theorem parse_field_num {nt : Numbers} {s key : List Char} {v : Value} {n : JsNum}
    (h : parse nt s = some v) (hget : v.get key = some (.num n)) :
    ∃ text, n = nt.value text := by
  unfold parse at h
  split at h
  · rename_i v' hrun
    obtain rfl := Option.some.inj h
    obtain ⟨ts, -, hfold⟩ := Option.bind_eq_some_iff.mp hrun
    have hread := @foldlM_read nt ts (.value []) _ (by simp [Expect.Read]) hfold
    cases v' with
    | obj fields =>
      obtain ⟨l₁, l₂, hsplit, -⟩ := List.lookup_eq_some_iff.mp hget
      have hmem : (units key, Value.num n) ∈ fields := by
        rw [← List.mem_reverse, hsplit]
        simp
      exact hread.2.2 fields rfl _ hmem n rfl
    | _ => cases hget
  · cases h

end JsonText

end ZTG
