import LicenseTrack.Model.Text

/-! The installer's configuration file: how its values are written, one line each, and how the lines
are read back. A value survives unless a character of it ends a line for the reader.
-/

namespace LicenseTrack.Installer

/-- An `InstallerError` of the configuration file. -/
inductive ConfigFailure
  | forbidden
  | line (number : Nat)
  | key (key : List Char)
  | quotes (key : List Char)
  | value (key : List Char)
deriving DecidableEq

/-- The text of a failure, for the path of a file and the quoting of `repr`. -/
def ConfigFailure.message (path : String) (repr : String → String) : ConfigFailure → String
  | forbidden => "Configuration values cannot contain newlines or NUL bytes."
  | line number => s!"Invalid environment line {number} in {path}."
  | key k => "Invalid environment key " ++ repr (String.ofList k) ++ " in " ++ path ++ "."
  | quotes k => "Invalid quoted value for " ++ String.ofList k ++ " in " ++ path ++ "."
  | value k => "Invalid value for " ++ String.ofList k ++ " in " ++ path ++ "."

/-- A character of `SAFE_ENV_VALUE_RE`. -/
def isSafeChar (c : Char) : Bool := c.isAlphanum || "_./:@,+%=-".toList.contains c

/-- `str.replace` of one character by a text. -/
def replaceChar (old : Char) (new text : List Char) : List Char :=
  text.flatMap (fun c => if c = old then new else [c])

/-- The escapes inside double quotes. -/
def escape (text : List Char) : List Char :=
  replaceChar '"' ['\\', '"'] (replaceChar '\\' ['\\', '\\'] text)

/-- Whether `encode_env_value` refuses a value. -/
def isForbidden (value : List Char) : Bool :=
  value.any (fun c => c == '\n' || c == '\r' || c == '\x00')

/-- `encode_env_value`. -/
def encodeEnvValue (value : List Char) : Except ConfigFailure (List Char) :=
  if isForbidden value then .error .forbidden
  else if value.all isSafeChar then .ok value
  else .ok ('"' :: escape value ++ ['"'])

/-- A variable and its value. -/
abbrev Setting := List Char × List Char

/-- The line of a variable. -/
def settingLine (setting : Setting) : Except ConfigFailure (List Char) :=
  (encodeEnvValue setting.2).map (fun encoded => setting.1 ++ '=' :: encoded)

/-- The content that `write_env_file` writes. -/
def envFileContent (values : List Setting) : Except ConfigFailure (List Char) :=
  (values.mapM settingLine).map (fun lines => ['\n'].intercalate lines ++ ['\n'])

-- Reading

/-- A character that ends a line for `str.splitlines`. -/
def isLineBreak (c : Char) : Bool :=
  [0x0A, 0x0B, 0x0C, 0x0D, 0x1C, 0x1D, 0x1E, 0x85, 0x2028, 0x2029].contains c.toNat

/-- The lines of a text behind the front of a line. A carriage return and a line feed are one end. -/
def splitLinesFrom (front : List Char) (afterReturn : Bool) : List Char → List (List Char)
  | [] => if front.isEmpty then [] else [front]
  | c :: rest =>
      if afterReturn && c == '\n' then splitLinesFrom front false rest
      else if isLineBreak c then front :: splitLinesFrom [] (c == '\r') rest
      else splitLinesFrom (front ++ [c]) false rest

/-- `str.splitlines`. The translation of line ends when the file is read does not change the lines. -/
def splitLines (text : List Char) : List (List Char) := splitLinesFrom [] false text

/-- The state of a POSIX `shlex` that splits at white space only. -/
inductive LexState
  | between
  | word
  | quoted (quote : Char)
  | escaped (quote : Option Char)

/-- White space of `shlex`. -/
def isLexSpace (c : Char) : Bool := " \t\r\n".toList.contains c

/-- Quotes of `shlex`. -/
def isLexQuote (c : Char) : Bool := c == '\'' || c == '"'

/-- `shlex.split`, none standing for `ValueError`. -/
def shlexSplit : LexState → List Char → List Char → Option (List (List Char))
  | .between, _, [] => some []
  | .between, _, c :: rest =>
      if isLexSpace c then shlexSplit .between [] rest
      else if c = '\\' then shlexSplit (.escaped none) [] rest
      else if isLexQuote c then shlexSplit (.quoted c) [] rest
      else shlexSplit .word [c] rest
  | .word, token, [] => some [token]
  | .word, token, c :: rest =>
      if isLexSpace c then (shlexSplit .between [] rest).map (token :: ·)
      else if isLexQuote c then shlexSplit (.quoted c) token rest
      else if c = '\\' then shlexSplit (.escaped none) token rest
      else shlexSplit .word (token ++ [c]) rest
  -- No closing quotation.
  | .quoted _, _, [] => none
  | .quoted quote, token, c :: rest =>
      if c = quote then shlexSplit .word token rest
      else if c = '\\' ∧ quote = '"' then shlexSplit (.escaped (some quote)) token rest
      else shlexSplit (.quoted quote) (token ++ [c]) rest
  -- No escaped character.
  | .escaped _, _, [] => none
  | .escaped none, token, c :: rest => shlexSplit .word (token ++ [c]) rest
  | .escaped (some quote), token, c :: rest =>
      -- Only the quote and the backslash lose their backslash within quotes.
      if c = '\\' ∨ c = quote then shlexSplit (.quoted quote) (token ++ [c]) rest
      else shlexSplit (.quoted quote) (token ++ ['\\', c]) rest

/-- Whether a text matches the pattern of a variable name. -/
def isEnvKey : List Char → Bool
  | [] => false
  | first :: rest =>
      (first.isAlpha || first == '_') && rest.all (fun c => c.isAlphanum || c == '_')

/-- The value behind the sign of a line. -/
def parseEnvValue (key rawValue : List Char) : Except ConfigFailure (List Char) :=
  match rawValue with
  | [] => .ok []
  | first :: _ =>
      if isLexQuote first then
        match shlexSplit .between [] rawValue with
        | none => .error (.quotes key)
        | some [value] => .ok value
        | some _ => .error (.value key)
      else .ok rawValue

/-- One line of `parse_env_file`, nothing for a blank line and a comment. -/
def parseEnvLine (number : Nat) (rawLine : List Char) : Except ConfigFailure (Option Setting) :=
  let line := stripChars isSpace rawLine
  if line.isEmpty || line.head? == some '#' then .ok none
  else if !line.contains '=' then .error (.line number)
  else
    let key := stripChars isSpace (line.takeWhile (· != '='))
    if !isEnvKey key then .error (.key key)
    else
      (parseEnvValue key (stripChars isSpace ((line.dropWhile (· != '=')).drop 1))).map
        (fun value => some (key, value))

/-- `values[key] = value`, which keeps the place of a key that is there. -/
def setValue (values : List Setting) (setting : Setting) : List Setting :=
  if values.any (·.1 == setting.1) then
    values.map (fun old => if old.1 = setting.1 then setting else old)
  else values ++ [setting]

/-- The lines of `parse_env_file` from a number on, after the values that were read before. -/
def parseEnvLines (number : Nat) (values : List Setting)
    : List (List Char) → Except ConfigFailure (List Setting)
  | [] => .ok values
  | line :: rest =>
      match parseEnvLine number line with
      | .error failure => .error failure
      | .ok none => parseEnvLines (number + 1) values rest
      | .ok (some setting) => parseEnvLines (number + 1) (setValue values setting) rest

/-- `parse_env_file`, on the text of the file. -/
def parseEnvFile (content : List Char) : Except ConfigFailure (List Setting) :=
  parseEnvLines 1 [] (splitLines content)

theorem isAlphanum_plain {c : Char} (h : c.isAlphanum = true)
    : isSpace c = false ∧ isLineBreak c = false ∧ isLexQuote c = false ∧ c ≠ '=' := by
  have hrange : 48 ≤ c.toNat ∧ c.toNat ≤ 57 ∨ 65 ≤ c.toNat ∧ c.toNat ≤ 90
      ∨ 97 ≤ c.toNat ∧ c.toNat ≤ 122 := by
    rcases (Bool.or_eq_true _ _).mp h with halpha | hdigit
    · rcases (Bool.or_eq_true _ _).mp halpha with hupper | hlower
      · have hupper : 65 ≤ c.val ∧ c.val ≤ 90 := of_decide_eq_true hupper
        exact .inr (.inl ⟨UInt32.le_iff_toNat_le.mp hupper.1, UInt32.le_iff_toNat_le.mp hupper.2⟩)
      · obtain ⟨hfrom, hto⟩ := (Bool.and_eq_true _ _).mp hlower
        exact .inr (.inr ⟨UInt32.le_iff_toNat_le.mp (of_decide_eq_true hfrom),
          UInt32.le_iff_toNat_le.mp (of_decide_eq_true hto)⟩)
    · obtain ⟨hfrom, hto⟩ := (Bool.and_eq_true _ _).mp hdigit
      exact .inl ⟨UInt32.le_iff_toNat_le.mp (of_decide_eq_true hfrom),
        UInt32.le_iff_toNat_le.mp (of_decide_eq_true hto)⟩
  have hapart : ∀ other : Char, other.toNat < 48 ∨ other.toNat = 61 → c ≠ other := by
    rintro other hother rfl
    omega
  refine ⟨?_, ?_, ?_, hapart '=' (.inr rfl)⟩
  · rw [Bool.eq_false_iff]
    intro hspace
    simp only [isSpace, Bool.or_eq_true, Bool.and_eq_true, decide_eq_true_eq, beq_iff_eq] at hspace
    omega
  · rw [Bool.eq_false_iff]
    intro hbreak
    simp only [isLineBreak, List.contains_iff_mem, List.mem_cons, List.not_mem_nil, or_false]
      at hbreak
    omega
  · simp only [isLexQuote, Bool.or_eq_false_iff, beq_eq_false_iff_ne]
    exact ⟨hapart '\'' (.inl (by decide)), hapart '"' (.inl (by decide))⟩

theorem isSafeChar_plain {c : Char} (h : isSafeChar c = true)
    : isSpace c = false ∧ isLineBreak c = false ∧ isLexQuote c = false := by
  rw [isSafeChar, Bool.or_eq_true] at h
  rcases h with halnum | hother
  · obtain ⟨hspace, hbreak, hquote, -⟩ := isAlphanum_plain halnum
    exact ⟨hspace, hbreak, hquote⟩
  · have hall : ∀ c ∈ "_./:@,+%=-".toList,
        (!isSpace c && !isLineBreak c && !isLexQuote c) = true :=
      List.all_eq_true.mp (by decide)
    have hplain := hall c (List.contains_iff_mem.mp hother)
    simp only [Bool.and_eq_true, Bool.not_eq_true'] at hplain
    exact ⟨hplain.1.1, hplain.1.2, hplain.2⟩

theorem isEnvKey_plain {key : List Char} (h : isEnvKey key = true)
    : key ≠ [] ∧ ∀ c ∈ key, isSpace c = false ∧ isLineBreak c = false ∧ c ≠ '=' ∧ c ≠ '#' := by
  have hplain : ∀ c : Char, (c.isAlphanum || c == '_') = true →
      isSpace c = false ∧ isLineBreak c = false ∧ c ≠ '=' ∧ c ≠ '#' := by
    intro c hc
    rw [Bool.or_eq_true, beq_iff_eq] at hc
    rcases hc with halnum | rfl
    · obtain ⟨hspace, hbreak, -, hsign⟩ := isAlphanum_plain halnum
      refine ⟨hspace, hbreak, hsign, ?_⟩
      rintro rfl
      exact absurd halnum (by decide)
    · decide
  cases key with
  | nil => cases h
  | cons first rest =>
      rw [isEnvKey, Bool.and_eq_true, List.all_eq_true] at h
      refine ⟨List.cons_ne_nil _ _, List.forall_mem_cons.mpr ⟨hplain first ?_, ?_⟩⟩
      · rw [Char.isAlphanum]
        cases hfirst : first.isAlpha <;> simp_all
      · exact fun c hc => hplain c (h.2 c hc)

/-- One character inside double quotes. -/
def escapeChar (c : Char) : List Char :=
  if c = '\\' then ['\\', '\\'] else if c = '"' then ['\\', '"'] else [c]

theorem escape_eq (text : List Char) : escape text = text.flatMap escapeChar := by
  rw [escape, replaceChar, replaceChar, List.flatMap_assoc]
  congr 1
  funext c
  unfold escapeChar
  by_cases hback : c = '\\'
  · simp [hback]
  · by_cases hquote : c = '"' <;> simp [hback, hquote]

theorem escape_cons (c : Char) (rest : List Char) : escape (c :: rest) = escapeChar c ++ escape rest := by
  rw [escape_eq, escape_eq, List.flatMap_cons]

theorem escape_append (front rest : List Char) : escape (front ++ rest) = escape front ++ escape rest := by
  rw [escape_eq, escape_eq, escape_eq, List.flatMap_append]

theorem escape_plain {text : List Char} (h : ∀ c ∈ text, isLineBreak c = false)
    : ∀ c ∈ escape text, isLineBreak c = false := by
  intro c hc
  rw [escape_eq] at hc
  obtain ⟨d, hd, hcd⟩ := List.mem_flatMap.mp hc
  have hown := h d hd
  unfold escapeChar at hcd
  split at hcd
  · rcases List.mem_cons.mp hcd with rfl | hcd
    · decide
    · rw [List.mem_singleton.mp hcd]
      decide
  · split at hcd
    · rcases List.mem_cons.mp hcd with rfl | hcd
      · decide
      · rw [List.mem_singleton.mp hcd]
        decide
    · rw [List.mem_singleton.mp hcd]
      exact hown

theorem shlexSplit_escape (text token rest : List Char)
    : shlexSplit (.quoted '"') token (escape text ++ rest)
      = shlexSplit (.quoted '"') (token ++ text) rest := by
  induction text generalizing token with
  | nil => simp [escape_eq]
  | cons c text ih =>
      rw [escape_cons, escapeChar]
      by_cases hback : c = '\\'
      · subst hback
        simp [shlexSplit, ih]
      · by_cases hquote : c = '"'
        · subst hquote
          simp [shlexSplit, ih]
        · simp [shlexSplit, hback, hquote, ih]

theorem parseEnvValue_quoted (key value : List Char)
    : parseEnvValue key ('"' :: escape value ++ ['"']) = .ok value := by
  have hsplit : shlexSplit .between [] ('"' :: escape value ++ ['"']) = some [value] := by
    rw [List.cons_append, shlexSplit]
    simp only [show isLexSpace '"' = false from rfl, show isLexQuote '"' = true from rfl]
    simp [shlexSplit_escape, shlexSplit]
  simp only [parseEnvValue, List.cons_append]
  rw [if_pos (by decide), ← List.cons_append, hsplit]

theorem parseEnvValue_open (key value : List Char)
    : parseEnvValue key ('"' :: escape value) = .error (.quotes key) := by
  have hsplit : shlexSplit .between [] ('"' :: escape value) = none := by
    rw [shlexSplit]
    simp only [show isLexSpace '"' = false from rfl, show isLexQuote '"' = true from rfl]
    have hopen := shlexSplit_escape value [] []
    rw [List.append_nil] at hopen
    simp [hopen, shlexSplit]
  rw [parseEnvValue, if_pos (by decide), hsplit]

-- One line

/-- The text of a value that is accepted. -/
def encodedText (value : List Char) : List Char :=
  if value.all isSafeChar then value else '"' :: escape value ++ ['"']

theorem encodeEnvValue_eq_ok {value encoded : List Char} (h : encodeEnvValue value = .ok encoded)
    : isForbidden value = false ∧ encoded = encodedText value := by
  unfold encodeEnvValue at h
  unfold encodedText
  split at h
  · cases h
  · next hforbidden =>
      refine ⟨Bool.eq_false_iff.mpr hforbidden, ?_⟩
      split at h <;> rename_i hsafe
      · rw [if_pos hsafe, Except.ok.inj h]
      · rw [if_neg hsafe, Except.ok.inj h]

theorem stripChars_eq_self {space : Char → Bool} {text : List Char}
    (hhead : ∀ c ∈ text.head?, space c = false) (hlast : ∀ c ∈ text.getLast?, space c = false)
    : stripChars space text = text := by
  have hdrop : text.dropWhile space = text := by
    cases text with
    | nil => rfl
    | cons c rest => rw [List.dropWhile_cons_of_neg (by simp [hhead c rfl])]
  change (text.dropWhile space).rdropWhile space = text
  rw [hdrop, List.rdropWhile_eq_self_iff]
  intro hne
  simp [hlast _ (List.getLast?_eq_some_getLast hne)]

theorem parseEnvLine_setting {key rawValue : List Char} (hkey : isEnvKey key = true)
    (hlast : ∀ c ∈ rawValue.getLast?, isSpace c = false) (number : Nat)
    : parseEnvLine number (key ++ '=' :: rawValue)
      = (parseEnvValue key (stripChars isSpace rawValue)).map (fun value => some (key, value)) := by
  obtain ⟨hne, hplain⟩ := isEnvKey_plain hkey
  obtain ⟨first, others, hfirst⟩ := List.exists_cons_of_ne_nil hne
  obtain ⟨hspace, -, -, hcomment⟩ := hplain first (by simp [hfirst])
  have hstrip : stripChars isSpace (key ++ '=' :: rawValue) = key ++ '=' :: rawValue := by
    refine stripChars_eq_self ?_ ?_
    · simpa [hfirst] using hspace
    · rw [List.getLast?_append_of_ne_nil _ (List.cons_ne_nil _ _), List.getLast?_cons]
      intro c hc
      rcases hraw : rawValue.getLast? with _ | last
      · rw [hraw] at hc
        obtain rfl := Option.some.inj hc
        decide
      · rw [hraw] at hc
        obtain rfl := Option.some.inj hc
        exact hlast _ hraw
  have hname : stripChars isSpace key = key := by
    refine stripChars_eq_self (fun c hc => ?_) fun c hc => ?_
    · exact (hplain c (List.mem_of_mem_head? hc)).1
    · exact (hplain c (List.mem_of_mem_getLast? hc)).1
  have htake : (key ++ '=' :: rawValue).takeWhile (· != '=') = key := by
    rw [List.takeWhile_append_of_pos fun c hc => by simpa using (hplain c hc).2.2.1]
    simp
  have hdrop : (key ++ '=' :: rawValue).dropWhile (· != '=') = '=' :: rawValue := by
    rw [List.dropWhile_append_of_pos fun c hc => by simpa using (hplain c hc).2.2.1]
    simp
  have hsome : ((key ++ '=' :: rawValue).isEmpty
      || (key ++ '=' :: rawValue).head? == some '#') = false := by
    simp [hfirst, hcomment]
  have hsign : (key ++ '=' :: rawValue).contains '=' = true := by simp
  simp only [parseEnvLine, hstrip, hsome, htake, hdrop, hname, hsign, hkey, Bool.not_true,
    Bool.false_eq_true, if_false, List.drop_one, List.tail_cons]

/-- The line of a setting. -/
def settingText (setting : Setting) : List Char := setting.1 ++ '=' :: encodedText setting.2

theorem parseEnvLine_settingText {setting : Setting} (hkey : isEnvKey setting.1 = true)
    (number : Nat)
    : parseEnvLine number (settingText setting) = .ok (some setting) := by
  unfold settingText encodedText
  split
  case isTrue hsafe =>
    rw [List.all_eq_true] at hsafe
    have hlast : ∀ c ∈ setting.2.getLast?, isSpace c = false := fun c hc =>
      (isSafeChar_plain (hsafe c (List.mem_of_mem_getLast? hc))).1
    rw [parseEnvLine_setting hkey hlast, stripChars_eq_self ?_ hlast]
    · rcases hvalue : setting.2 with _ | ⟨first, rest⟩
      · rw [parseEnvValue, Except.map, ← hvalue]
      · have hquote := (isSafeChar_plain (hsafe first (by simp [hvalue]))).2.2
        rw [parseEnvValue, hquote, if_neg Bool.false_ne_true, Except.map, ← hvalue]
    · exact fun c hc => (isSafeChar_plain (hsafe c (List.mem_of_mem_head? hc))).1
  case isFalse =>
    have hlast : ∀ c ∈ ('"' :: escape setting.2 ++ ['"']).getLast?, isSpace c = false := by
      intro c hc
      rw [List.getLast?_concat] at hc
      obtain rfl := Option.some.inj hc
      decide
    rw [parseEnvLine_setting hkey hlast, stripChars_eq_self ?_ hlast, parseEnvValue_quoted]
    · rfl
    · simp only [List.cons_append, List.head?_cons, Option.mem_some_iff, forall_eq']
      decide

theorem stripChars_append {space : Char → Bool} {first : Char} (hfirst : space first = false)
    (text : List Char) {spaces : List Char} (hspaces : ∀ c ∈ spaces, space c = true)
    : stripChars space (first :: text ++ spaces) = stripChars space (first :: text) := by
  have hdrop : ∀ rest, (first :: rest).dropWhile space = first :: rest := fun rest =>
    List.dropWhile_cons_of_neg (by simp [hfirst])
  change ((first :: text ++ spaces).dropWhile space).rdropWhile space
    = ((first :: text).dropWhile space).rdropWhile space
  rw [List.cons_append, hdrop, hdrop, ← List.cons_append]
  induction spaces using List.reverseRecOn with
  | nil => rw [List.append_nil]
  | append_singleton spaces last ih =>
      obtain ⟨hrest, hlast⟩ := List.forall_mem_append.mp hspaces
      rw [← List.append_assoc, List.rdropWhile_concat_pos _ _ _ (hlast last (by simp)), ih hrest]

theorem getLast?_escapeChar (c : Char) : (escapeChar c).getLast? = some c := by
  unfold escapeChar
  split
  · next hback => rw [hback]; rfl
  · split
    · next hquote => rw [hquote]; rfl
    · rfl

theorem escape_spaces {spaces : List Char} (h : ∀ c ∈ spaces, isSpace c = true)
    : escape spaces = spaces := by
  induction spaces with
  | nil => rfl
  | cons c spaces ih =>
      obtain ⟨hc, hspaces⟩ := List.forall_mem_cons.mp h
      have hown : escapeChar c = [c] := by
        rw [escapeChar, if_neg, if_neg]
        · rintro rfl
          exact absurd hc (by decide)
        · rintro rfl
          exact absurd hc (by decide)
      rw [escape_cons, hown, ih hspaces, List.singleton_append]

theorem parseEnvLine_broken {key : List Char} (hkey : isEnvKey key = true) (front : List Char)
    (number : Nat)
    : parseEnvLine number (key ++ '=' :: '"' :: escape front) = .error (.quotes key) := by
  obtain ⟨hne, hplain⟩ := isEnvKey_plain hkey
  obtain ⟨first, others, hfirst⟩ := List.exists_cons_of_ne_nil hne
  have hspace := (hplain first (by simp [hfirst])).1
  obtain ⟨kept, hkept⟩ : ∃ kept, kept = front.rdropWhile isSpace := ⟨_, rfl⟩
  have hfront : front = kept ++ front.rtakeWhile isSpace := by
    rw [hkept, List.rdropWhile_append_rtakeWhile]
  have hspaces : ∀ c ∈ front.rtakeWhile isSpace, isSpace c = true :=
    fun c hc => List.mem_rtakeWhile_imp hc
  have hline : parseEnvLine number (key ++ '=' :: '"' :: escape front)
      = parseEnvLine number (key ++ '=' :: '"' :: escape kept) := by
    have hstrip := stripChars_append hspace (others ++ '=' :: '"' :: escape kept) hspaces
    rw [parseEnvLine, parseEnvLine, hfront, escape_append, escape_spaces hspaces, hfirst]
    rw [show first :: others ++ '=' :: '"' :: (escape kept ++ front.rtakeWhile isSpace)
      = first :: (others ++ '=' :: '"' :: escape kept) ++ front.rtakeWhile isSpace by simp, hstrip]
    rfl
  have hlast : ∀ c ∈ ('"' :: escape kept).getLast?, isSpace c = false := by
    intro c hc
    rcases List.eq_nil_or_concat kept with hnil | ⟨others, last, hconcat⟩
    · rw [hnil] at hc
      obtain rfl := Option.some.inj hc
      decide
    · have hown := getLast?_escapeChar last
      have hends : ('"' :: escape kept).getLast? = some last := by
        have hchar : escapeChar last ≠ [] := by
          intro hnil
          rw [hnil] at hown
          cases hown
        rw [hconcat, List.concat_eq_append, escape_append, ← List.cons_append,
          escape_cons, show escape [] = [] from rfl, List.append_nil,
          List.getLast?_append_of_ne_nil _ hchar, hown]
      rw [hends] at hc
      obtain rfl := Option.some.inj hc
      have hkeptLast := List.rdropWhile_last_not isSpace front (by rw [← hkept, hconcat]; simp)
      simpa [← hkept, hconcat] using hkeptLast
  rw [hline, parseEnvLine_setting hkey hlast, stripChars_eq_self ?_ hlast, parseEnvValue_open]
  · rfl
  · simp only [List.head?_cons, Option.mem_some_iff, forall_eq']
    decide

theorem splitLinesFrom_plain {line : List Char} (h : ∀ c ∈ line, isLineBreak c = false)
    (front rest : List Char)
    : splitLinesFrom front false (line ++ rest) = splitLinesFrom (front ++ line) false rest := by
  induction line generalizing front with
  | nil => simp
  | cons c line ih =>
      obtain ⟨hc, hline⟩ := List.forall_mem_cons.mp h
      rw [List.cons_append, splitLinesFrom, Bool.false_and, if_neg Bool.false_ne_true, hc,
        if_neg Bool.false_ne_true, ih hline, List.append_assoc, List.singleton_append]

theorem splitLines_cons {line : List Char} (h : ∀ c ∈ line, isLineBreak c = false) {c : Char}
    (hc : isLineBreak c = true) (rest : List Char)
    : splitLines (line ++ c :: rest) = line :: splitLinesFrom [] (c == '\r') rest := by
  rw [splitLines, splitLinesFrom_plain h, splitLinesFrom, Bool.false_and, if_neg Bool.false_ne_true,
    if_pos hc, List.nil_append]

theorem splitLines_newline {line : List Char} (h : ∀ c ∈ line, isLineBreak c = false)
    (rest : List Char)
    : splitLines (line ++ '\n' :: rest) = line :: splitLines rest :=
  splitLines_cons h (by decide) rest

/-- The content of a file of settings. -/
def settingLines (values : List Setting) : List Char :=
  values.flatMap (fun setting => settingText setting ++ ['\n'])

theorem settingLines_cons (setting : Setting) (rest : List Setting)
    : settingLines (setting :: rest) = settingText setting ++ '\n' :: settingLines rest := by
  simp [settingLines]

theorem mapM_settingLine {values : List Setting}
    (h : ∀ setting ∈ values, ∃ encoded, encodeEnvValue setting.2 = .ok encoded)
    : values.mapM settingLine = .ok (values.map settingText) := by
  induction values with
  | nil => rfl
  | cons setting rest ih =>
      obtain ⟨⟨encoded, hencoded⟩, hrest⟩ := List.forall_mem_cons.mp h
      have htext := (encodeEnvValue_eq_ok hencoded).2
      rw [List.mapM_cons, ih hrest, settingLine, hencoded, htext]
      rfl

theorem intercalate_newline (lines : List (List Char)) (hne : lines ≠ [])
    : ['\n'].intercalate lines ++ ['\n'] = lines.flatMap (fun line => line ++ ['\n']) := by
  induction lines with
  | nil => exact absurd rfl hne
  | cons line rest ih =>
      rcases rest with _ | ⟨next, rest⟩
      · simp
      · rw [List.flatMap_cons, ← ih (List.cons_ne_nil _ _)]
        simp [List.intercalate, List.intersperse]

theorem envFileContent_eq {values : List Setting}
    (h : ∀ setting ∈ values, ∃ encoded, encodeEnvValue setting.2 = .ok encoded)
    : envFileContent values = .ok (if values = [] then ['\n'] else settingLines values) := by
  rw [envFileContent, mapM_settingLine h, Except.map]
  by_cases hnone : values = []
  · rw [if_pos hnone, hnone]
    rfl
  · rw [if_neg hnone, intercalate_newline _ (by simpa using hnone), settingLines, List.flatMap_map]

-- The round trip

theorem setValue_new {values : List Setting} {setting : Setting}
    (h : ∀ old ∈ values, old.1 ≠ setting.1) : setValue values setting = values ++ [setting] := by
  rw [setValue, if_neg]
  simp only [List.any_eq_true, beq_iff_eq, not_exists, not_and]
  exact h

theorem parseEnvLines_settings {values : List Setting} (hkeys : ∀ s ∈ values, isEnvKey s.1 = true)
    (before : List Setting) (hnodup : ((before ++ values).map Prod.fst).Nodup) (number : Nat)
    : parseEnvLines number before (values.map settingText) = .ok (before ++ values) := by
  induction values generalizing before number with
  | nil => simp [parseEnvLines]
  | cons setting rest ih =>
      obtain ⟨hkey, hrest⟩ := List.forall_mem_cons.mp hkeys
      have hnew : ∀ old ∈ before, old.1 ≠ setting.1 := by
        intro old hold hsame
        rw [List.map_append] at hnodup
        exact (List.nodup_append.mp hnodup).2.2 old.1 (List.mem_map_of_mem hold) setting.1
          (List.mem_map_of_mem List.mem_cons_self) hsame
      rw [List.append_cons] at hnodup ⊢
      rw [List.map_cons, parseEnvLines, parseEnvLine_settingText hkey]
      dsimp only
      rw [setValue_new hnew]
      exact ih hrest _ hnodup _

theorem parseEnvLines_refused {lines : List (List Char)} {line : List Char} (hline : line ∈ lines)
    (hrefused : ∀ number, ∃ failure, parseEnvLine number line = .error failure) (number : Nat)
    (values : List Setting)
    : ∃ failure, parseEnvLines number values lines = .error failure := by
  induction lines generalizing number values with
  | nil => cases hline
  | cons first rest ih =>
      rw [parseEnvLines]
      rcases List.mem_cons.mp hline with rfl | hmem
      · obtain ⟨failure, hfailure⟩ := hrefused number
        rw [hfailure]
        exact ⟨failure, rfl⟩
      · rcases parseEnvLine number first with failure | _ | setting
        · exact ⟨failure, rfl⟩
        · exact ih hmem _ _
        · exact ih hmem _ _

theorem settingText_plain {setting : Setting} (hkey : isEnvKey setting.1 = true)
    (hvalue : ∀ c ∈ setting.2, isLineBreak c = false)
    : ∀ c ∈ settingText setting, isLineBreak c = false := by
  have hencoded : ∀ c ∈ encodedText setting.2, isLineBreak c = false := by
    unfold encodedText
    split
    · exact hvalue
    · refine List.forall_mem_append.mpr ⟨List.forall_mem_cons.mpr ⟨by decide, ?_⟩, ?_⟩
      · exact escape_plain hvalue
      · exact List.forall_mem_singleton.mpr (by decide)
  refine List.forall_mem_append.mpr ⟨fun c hc => ((isEnvKey_plain hkey).2 c hc).2.1, ?_⟩
  exact List.forall_mem_cons.mpr ⟨by decide, hencoded⟩

theorem splitLines_settings {values : List Setting} (hkeys : ∀ s ∈ values, isEnvKey s.1 = true)
    (hplain : ∀ s ∈ values, ∀ c ∈ s.2, isLineBreak c = false)
    : splitLines (settingLines values) = values.map settingText := by
  induction values with
  | nil => rfl
  | cons setting rest ih =>
      obtain ⟨hkey, hrest⟩ := List.forall_mem_cons.mp hkeys
      obtain ⟨hvalue, hothers⟩ := List.forall_mem_cons.mp hplain
      rw [settingLines_cons, splitLines_newline (settingText_plain hkey hvalue), ih hrest hothers,
        List.map_cons]

/-- A line break in a value leaves a line whose quotes do not close. By induction on the settings, up
to the first value with a line break.
-/
theorem brokenLine_mem {values : List Setting} (hkeys : ∀ s ∈ values, isEnvKey s.1 = true)
    (hbroken : ∃ s ∈ values, ∃ c ∈ s.2, isLineBreak c = true)
    : ∃ line ∈ splitLines (settingLines values),
      ∀ number, ∃ failure, parseEnvLine number line = .error failure := by
  induction values with
  | nil =>
      obtain ⟨s, hs, -⟩ := hbroken
      cases hs
  | cons setting rest ih =>
      obtain ⟨hkey, hrest⟩ := List.forall_mem_cons.mp hkeys
      rw [settingLines_cons]
      by_cases hplain : ∀ c ∈ setting.2, isLineBreak c = false
      · rw [splitLines_newline (settingText_plain hkey hplain)]
        have hlater : ∃ s ∈ rest, ∃ c ∈ s.2, isLineBreak c = true := by
          obtain ⟨s, hs, c, hc, hcut⟩ := hbroken
          rcases List.mem_cons.mp hs with rfl | hs
          · rw [hplain c hc] at hcut
            cases hcut
          · exact ⟨s, hs, c, hc, hcut⟩
        obtain ⟨line, hline, hrefused⟩ := ih hrest hlater
        exact ⟨line, List.mem_cons_of_mem _ hline, hrefused⟩
      · -- The value up to its first line break.
        obtain ⟨front, c, back, hvalue, hfront, hc⟩ : ∃ front c back, setting.2 = front ++ c :: back
            ∧ (∀ d ∈ front, isLineBreak d = false) ∧ isLineBreak c = true := by
          have hsome : setting.2.dropWhile (fun d => !isLineBreak d) ≠ [] := by
            intro hnil
            refine hplain fun d hd => ?_
            simpa using List.dropWhile_eq_nil_iff.mp hnil d hd
          obtain ⟨c, back, hback⟩ := List.exists_cons_of_ne_nil hsome
          refine ⟨setting.2.takeWhile (fun d => !isLineBreak d), c, back, ?_, fun d hd => ?_, ?_⟩
          · rw [← hback, List.takeWhile_append_dropWhile]
          · simpa using List.mem_takeWhile_imp hd
          · have hhead := List.head_dropWhile_not (fun d => !isLineBreak d) hsome
            simpa [hback] using hhead
        have hunsafe : ¬setting.2.all isSafeChar = true := by
          intro hall
          rw [List.all_eq_true] at hall
          have hsafe := (isSafeChar_plain (hall c (by simp [hvalue]))).2.1
          rw [hc] at hsafe
          cases hsafe
        have hown : escapeChar c = [c] := by
          rw [escapeChar, if_neg, if_neg]
          · rintro rfl
            exact absurd hc (by decide)
          · rintro rfl
            exact absurd hc (by decide)
        have htext : settingText setting ++ '\n' :: settingLines rest
            = (setting.1 ++ '=' :: '"' :: escape front)
              ++ c :: (escape back ++ '"' :: '\n' :: settingLines rest) := by
          rw [settingText, encodedText, if_neg hunsafe, hvalue, escape_append, escape_cons, hown]
          simp
        have hline : ∀ d ∈ setting.1 ++ '=' :: '"' :: escape front, isLineBreak d = false := by
          refine List.forall_mem_append.mpr ⟨fun d hd => ((isEnvKey_plain hkey).2 d hd).2.1, ?_⟩
          exact List.forall_mem_cons.mpr ⟨by decide,
            List.forall_mem_cons.mpr ⟨by decide, escape_plain hfront⟩⟩
        rw [htext, splitLines_cons hline hc]
        exact ⟨_, List.mem_cons_self, fun number => ⟨_, parseEnvLine_broken hkey front number⟩⟩

/-- What is written is read back exactly where no value has a character in it that ends a line for
the reader.
-/
theorem configFile_roundTrip_iff (values : List Setting) (hnodup : (values.map Prod.fst).Nodup)
    (hkeys : ∀ setting ∈ values, isEnvKey setting.1 = true)
    (haccepted : ∀ setting ∈ values, ∃ encoded, encodeEnvValue setting.2 = .ok encoded)
    : (∃ content, envFileContent values = .ok content ∧ parseEnvFile content = .ok values)
      ↔ ∀ setting ∈ values, ∀ c ∈ setting.2, isLineBreak c = false := by
  have hcontent := envFileContent_eq haccepted
  constructor
  · rintro ⟨content, hwritten, hread⟩
    by_contra hplain
    push Not at hplain
    obtain ⟨setting, hsetting, c, hc, hcut⟩ := hplain
    have hsome : values ≠ [] := List.ne_nil_of_mem hsetting
    rw [hcontent, if_neg hsome] at hwritten
    obtain ⟨line, hline, hrefused⟩ :=
      brokenLine_mem hkeys ⟨setting, hsetting, c, hc, by simpa using hcut⟩
    obtain ⟨failure, hfailure⟩ := parseEnvLines_refused hline hrefused 1 []
    rw [← Except.ok.inj hwritten, parseEnvFile, hfailure] at hread
    cases hread
  · intro hplain
    refine ⟨_, hcontent, ?_⟩
    by_cases hnone : values = []
    · rw [if_pos hnone, hnone]
      rfl
    · rw [if_neg hnone, parseEnvFile, splitLines_settings hkeys hplain]
      exact parseEnvLines_settings hkeys [] hnodup 1

/-- A password with a quote, a backslash, a hash sign and white space around it. -/
theorem configFile_roundTrip_iff_password
    : ∃ content, envFileContent [("DB_PASSWORD".toList, " a\"b\\#c ".toList)] = .ok content
      ∧ parseEnvFile content = .ok [("DB_PASSWORD".toList, " a\"b\\#c ".toList)] :=
  (configFile_roundTrip_iff [("DB_PASSWORD".toList, " a\"b\\#c ".toList)] (by decide) (by decide)
    (fun setting hsetting => by
      obtain rfl := List.mem_singleton.mp hsetting
      exact ⟨_, rfl⟩)).mpr (fun setting hsetting c hc => by
    obtain rfl := List.mem_singleton.mp hsetting
    have hall : ∀ c ∈ " a\"b\\#c ".toList, (!isLineBreak c) = true :=
      List.all_eq_true.mp (by decide)
    exact Bool.not_eq_true' _ ▸ hall c hc)

/-- A value with a line separator is accepted and written, and then the file is refused. -/
theorem configFile_notRead
    : isEnvKey "DB_PASSWORD".toList = true
      ∧ encodeEnvValue "a\u2028b".toList = .ok "\"a\u2028b\"".toList
      ∧ (∀ content, envFileContent [("DB_PASSWORD".toList, "a\u2028b".toList)] = .ok content →
        parseEnvFile content = .error (.quotes "DB_PASSWORD".toList)) := by
  refine ⟨by decide +kernel, by decide +kernel, fun content hcontent => ?_⟩
  have hwritten : envFileContent [("DB_PASSWORD".toList, "a\u2028b".toList)]
      = .ok "DB_PASSWORD=\"a\u2028b\"\n".toList := by
    decide +kernel
  rw [hwritten] at hcontent
  rw [← Except.ok.inj hcontent]
  decide +kernel

end LicenseTrack.Installer
