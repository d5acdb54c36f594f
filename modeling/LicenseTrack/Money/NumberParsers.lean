import LicenseTrack.Library.Words
import LicenseTrack.Model.Text

/-! The two parsers of number text: the backend's `parse_localized_money` and the browser's
`parseTypedNumberResult`, with the regular expressions that both of them spell out.
-/

namespace LicenseTrack

open Library

/-- `_LOCALE_SEPS`: the decimal and the group separator of each number format. The browser reads
the file that `frontend_number_formats` generates of it.
-/
def localeSeps : List (String × Char × Option Char) :=
  [
    ("en-US", '.', some ','),
    ("en-GB", '.', some ','),
    ("en-AU", '.', some ','),
    ("en-CA", '.', some ','),
    ("en-NZ", '.', some ','),
    ("de-DE", ',', some '.'),
    ("de-AT", ',', some '.'),
    ("de-CH", '.', some '\''),
    ("fr-FR", ',', some '\u00a0'),
    ("fr-BE", ',', some '.'),
    ("fr-CH", '.', some '\''),
    ("fr-CA", ',', some '\u00a0'),
    ("nl-NL", ',', some '.'),
    ("nl-BE", ',', some '.'),
    ("it-IT", ',', some '.'),
    ("es-ES", ',', some '.'),
    ("es-MX", '.', some ','),
    ("es-AR", ',', some '.'),
    ("pt-BR", ',', some '.'),
    ("pt-PT", ',', some '\u00a0'),
    ("pl-PL", ',', some '\u00a0'),
    ("sv-SE", ',', some '\u00a0'),
    ("da-DK", ',', some '.'),
    ("nb-NO", ',', some '\u00a0'),
    ("fi-FI", ',', some '\u00a0'),
    ("ja-JP", '.', some ','),
    ("zh-CN", '.', some ','),
    ("zh-TW", '.', some ','),
    ("ko-KR", '.', some ','),
    ("ru-RU", ',', some '\u00a0'),
    ("tr-TR", ',', some '.'),
    ("ar-SA", '.', some ','),
    ("he-IL", '.', some ','),
    ("cs-CZ", ',', some '\u00a0'),
    ("hu-HU", ',', some '\u00a0'),
    ("ro-RO", ',', some '.'),
    ("sk-SK", ',', some '\u00a0'),
    ("bg-BG", ',', some '\u00a0'),
    ("hr-HR", ',', some '.')
  ]

/-- `SUPPORTED_NUMBER_FORMAT_LOCALES`. -/
def supportedNumberFormatLocales : List String := localeSeps.map Prod.fst

/-- `_CURRENCY_SYMBOLS`. -/
def currencySymbols : List Char := "$€£¥₹₩₪₺₽".toList

/-- `_CURRENCY_CODES`. -/
def currencyCodes : List String :=
  ["AUD", "BRL", "CAD", "CHF", "CNY", "CZK", "DKK", "EUR", "GBP", "HKD", "HUF", "ILS", "INR", "JPY",
    "KRW", "MXN", "NOK", "NZD", "PLN", "RON", "SEK", "SGD", "USD", "ZAR"]

/-- What a parser makes of a text. -/
inductive NumberReading
  | blank
  /-- `AmbiguousNumberError`, or the error `ambiguous`. -/
  | ambiguous
  /-- `MoneyParseError`, or the error `invalid`. -/
  | invalid
  /-- A canonical text. -/
  | number (value : String)
deriving DecidableEq

/-- `^-?`. -/
def withoutSign : List Char → List Char
  | '-' :: rest => rest
  | text => text

/-- `\d+$`. -/
def isDigits (digit : Char → Bool) (text : List Char) : Bool := !text.isEmpty && text.all digit

/-- `(D\d+)?$`, with the decimal separator for `D`. -/
def endsInFraction (digit : Char → Bool) (decimal : Char) : List Char → Bool
  | [] => true
  | c :: rest => c == decimal && isDigits digit rest

/-- `^-?\d+(D\d+)?$`. Neither separator is a digit, so the digits in front are all of them. -/
def matchesPlain (digit : Char → Bool) (decimal : Char) (text : List Char) : Bool :=
  let body := withoutSign text
  !(body.takeWhile digit).isEmpty && endsInFraction digit decimal (body.dropWhile digit)

/-- `(G\d{3})*(D\d+)?$`, with the group separator for `G`. -/
def endsInGroups (digit : Char → Bool) (group decimal : Char) : List Char → Bool
  | c :: d₁ :: d₂ :: d₃ :: rest =>
      (c == group && digit d₁ && digit d₂ && digit d₃ && endsInGroups digit group decimal rest)
        || (c == decimal && isDigits digit (d₁ :: d₂ :: d₃ :: rest))
  | rest => endsInFraction digit decimal rest

/-- `^-?\d{1,3}(G\d{3})+(D\d+)?$`. -/
def matchesGrouped (digit : Char → Bool) (group decimal : Char) (text : List Char) : Bool :=
  let body := withoutSign text
  let whole := body.takeWhile digit
  let rest := body.dropWhile digit
  !whole.isEmpty && whole.length ≤ 3 && rest.head? == some group
    && endsInGroups digit group decimal rest

/-- `^-?[1-9]\d{0,2}\.\d{3}$`. -/
def matchesAmbiguousDot (digit : Char → Bool) (text : List Char) : Bool :=
  match withoutSign text with
  | [] => false
  | first :: rest =>
      '1' ≤ first && first ≤ '9' && (rest.takeWhile digit).length ≤ 2
        && match rest.dropWhile digit with
          | '.' :: fraction => fraction.length == 3 && fraction.all digit
          | _ => false

/-- A number without its group separators. -/
def withoutGroups (group : Option Char) (text : List Char) : List Char :=
  match group with
  | some g => text.filter (fun c => c != g)
  | none => text

/-- A number with a point for its decimal separator. -/
def withPoint (decimal : Char) (text : List Char) : List Char :=
  text.map (fun c => if c = decimal then '.' else c)

/-- A text without a currency symbol in front. -/
def withoutFirstSymbol (space : Char → Bool) (value : List Char) : List Char :=
  match value with
  | [] => []
  | c :: rest => if currencySymbols.contains c then trim space rest else value

/-- A text without a currency symbol at the end. -/
def withoutLastSymbol (space : Char → Bool) (value : List Char) : List Char :=
  match value.getLast? with
  | none => value
  | some c => if currencySymbols.contains c then trim space value.dropLast else value

/-- The first part of both parsers' currency stripping: a symbol at either end, with the white
space of the parser's language.
-/
def withoutSymbols (space : Char → Bool) (text : List Char) : List Char :=
  withoutLastSymbol space (withoutFirstSymbol space (trim space text))

/-- Whether a word in capitals is a currency code. -/
def isCurrencyCode (u : Unicode) (word : List Char) : Bool :=
  currencyCodes.contains (u.upper (String.ofList word))

/-- `str.split(maxsplit=1)` where it makes two parts. -/
def splitOnce (text : List Char) : Option (List Char × List Char) :=
  let start := text.dropWhile isSpace
  let rest := (start.dropWhile (fun c => !isSpace c)).dropWhile isSpace
  if rest.isEmpty then none else some (start.takeWhile (fun c => !isSpace c), rest)

/-- `str.rsplit(maxsplit=1)` where it makes two parts. -/
def rsplitOnce (text : List Char) : Option (List Char × List Char) :=
  let start := text.rdropWhile isSpace
  let rest := (start.rdropWhile (fun c => !isSpace c)).rdropWhile isSpace
  if rest.isEmpty then none else some (rest, start.rtakeWhile (fun c => !isSpace c))

/-- The part of `_strip_currency_affixes` that drops a code in front. -/
def pyWithoutFirstCode (u : Unicode) (value : List Char) : List Char :=
  match splitOnce value with
  | some (first, rest) => if isCurrencyCode u first then trim isSpace rest else value
  | none => value

/-- The part of `_strip_currency_affixes` that drops a code at the end. -/
def pyWithoutLastCode (u : Unicode) (value : List Char) : List Char :=
  match rsplitOnce value with
  | some (front, last) => if isCurrencyCode u last then trim isSpace front else value
  | none => value

/-- `_strip_currency_affixes`. -/
def stripCurrencyAffixes (u : Unicode) (raw : List Char) : List Char :=
  pyWithoutLastCode u (pyWithoutFirstCode u (withoutSymbols isSpace raw))

/-- `\d` in a Python pattern. -/
def Unicode.isDecimal (u : Unicode) (c : Char) : Bool := (u.digit c).isSome

/-- `number_format_separators`. -/
def numberFormatSeparators (numberFormatLocale : String) : Char × Option Char :=
  (localeSeps.lookup numberFormatLocale).getD ('.', some ',')

/-- `parse_localized_money`. No white space is left when the patterns are tried, so that their end
is the end of the text.
-/
def parseLocalizedMoney (u : Unicode) (raw : Option String) (numberFormatLocale : String)
    : NumberReading :=
  match raw with
  | none => .blank
  | some raw =>
      if isBlank raw then .blank
      else
        let s := (stripCurrencyAffixes u raw.toList).filter (fun c => !isSpace c)
        if s.isEmpty then .blank
        else
          let (decimal, rawGroup) := numberFormatSeparators numberFormatLocale
          let group := rawGroup.filter (fun c => !isSpace c)
          if u.isCanonicalMoney (String.ofList s) then
            if decimal != '.' && group == some '.' && matchesAmbiguousDot u.isDecimal s then
              .ambiguous
            else .number (String.ofList s)
          else if matchesPlain u.isDecimal decimal s
              || group.any (fun g => matchesGrouped u.isDecimal g decimal s) then
            let s := withPoint decimal (withoutGroups group s)
            if u.isCanonicalMoney (String.ofList s) then .number (String.ofList s) else .invalid
          else .invalid

/-- `\s` in a JavaScript pattern, and the characters that `trim` drops. -/
def jsSpace (c : Char) : Bool :=
  let n := c.toNat
  (9 ≤ n && n ≤ 13) || n == 32 || n == 0xA0 || n == 0x1680 || (0x2000 ≤ n && n ≤ 0x200A)
    || n == 0x2028 || n == 0x2029 || n == 0x202F || n == 0x205F || n == 0x3000 || n == 0xFEFF

/-- The part of `stripCurrency` that drops a code in front. A trimmed text is split into its words;
where it is empty, into one empty piece, which no branch tells from no word.
-/
def jsWithoutFirstCode (u : Unicode) (value : List Char) : List Char :=
  match words jsSpace value with
  | first :: next :: rest =>
      if isCurrencyCode u first then [' '].intercalate (next :: rest) else value
  | _ => value

/-- The part of `stripCurrency` that drops a code at the end. -/
def jsWithoutLastCode (u : Unicode) (value : List Char) : List Char :=
  let tail := words jsSpace value
  if 1 < tail.length && tail.getLast?.any (isCurrencyCode u) then [' '].intercalate tail.dropLast
  else value

/-- `stripCurrency`. -/
def stripCurrency (u : Unicode) (text : List Char) : List Char :=
  jsWithoutLastCode u (jsWithoutFirstCode u (withoutSymbols jsSpace text))

/-- `separatorsFor`. -/
def separatorsFor (numberFormatLocale : String) : Char × Option Char :=
  let locale := if numberFormatLocale = "" then "en-US" else numberFormatLocale
  ((localeSeps.lookup locale).or (localeSeps.lookup "en-US")).getD ('.', none)

/-- `parseTypedNumberResult`. -/
def parseTypedNumberResult (u : Unicode) (raw : Option String) (numberFormatLocale : String)
    : NumberReading :=
  match raw with
  | none => .blank
  | some raw =>
      let text := (stripCurrency u raw.toList).filter (fun c => !jsSpace c)
      if text.isEmpty then .blank
      else
        let (decimal, rawGroup) := separatorsFor numberFormatLocale
        let group := rawGroup.filter (fun c => !jsSpace c)
        if matchesPlain Char.isDigit '.' text then
          if decimal != '.' && group == some '.' && matchesAmbiguousDot Char.isDigit text then
            .ambiguous
          else .number (String.ofList text)
        else if matchesPlain Char.isDigit decimal text
            || group.any (fun g => matchesGrouped Char.isDigit g decimal text) then
          let canonical := withPoint decimal (withoutGroups group text)
          if matchesPlain Char.isDigit '.' canonical then .number (String.ofList canonical)
          else .invalid
        else .invalid

end LicenseTrack
