/-
The matcher for the text chat of strangers.

A message is folded, cut into tokens, and each token folded again: into the
script most of its letters are of, without `_`, `$` and `@`, and with letters
once where they are repeated. The detectors look for listed words among the
tokens; the words of a list go through the same fold.

# Characters

Texts are lists of characters. ASCII and the Cyrillic letters are written
out; what Unicode says of all others (the first character of the lower case,
alphabetic, numeric) is a table.
-/
import Ruletka.Lib.Text

namespace Ruletka

open Text

/-- Characters in order. -/
abbrev Chars : Type := List Char

/-- Unicode beyond ASCII and the Cyrillic letters. -/
structure CharTable where
  /-- `to_lowercase().next()` -/
  lower : Char → Char
  alphabetic : Char → Bool
  numeric : Char → Bool

namespace CharTable

variable (T : CharTable)

/-- The lower case of ASCII and Cyrillic characters. -/
def plainLower (c : Char) : Option Char :=
  let n := c.toNat
  if n < 0x80 then some c.toLower
  else if 0x410 ≤ n ∧ n ≤ 0x42F then some (Char.ofNat (n + 0x20))
  else if 0x400 ≤ n ∧ n ≤ 0x40F then some (Char.ofNat (n + 0x50))
  else if 0x430 ≤ n ∧ n ≤ 0x45F then some c
  else none

def toLower (c : Char) : Char := (plainLower c).getD (T.lower c)

/-- `char::is_alphabetic`. -/
def isAlphabetic (c : Char) : Bool :=
  let n := c.toNat
  if n < 0x80 then c.isAlpha
  else if 0x400 ≤ n ∧ n ≤ 0x481 then true
  else T.alphabetic c

/-- `char::is_alphanumeric`. -/
def isAlphanumeric (c : Char) : Bool :=
  T.isAlphabetic c || if c.toNat < 0x80 then c.isDigit else T.numeric c

end CharTable

namespace ChatFilter

-- ==================================================================== word lists

/-- Off-platform apps, exact tokens. -/
def platformEq : List String :=
  ["tg", "тг", "vk", "вк", "kik", "wechat", "снап", "снэп", "инста", "инсту", "инсте", "инсты",
    "insta", "ватс", "вотс"]

/-- Off-platform apps, token prefixes. -/
def platformPrefix : List String :=
  ["telegram", "телеграм", "телег", "whatsapp", "ватсап", "вотсап", "вацап", "viber", "вайбер",
    "snapchat", "снапчат", "instagram", "инстаграм", "discord", "дискорд", "skype", "скайп",
    "onlyfans", "онлифанс", "вконтакт", "signalapp"]

/-- Short app names that are also normal words: only behind these. -/
def platformPairs : List (String × String) :=
  [("on", "snap"), ("my", "snap"), ("in", "snap")]

/-- Long app names also looked for with separators removed. -/
def platformSquashed : List String :=
  ["telegram", "телеграм", "whatsapp", "ватсап", "snapchat", "instagram", "инстаграм",
    "onlyfans"]

/-- Looked for in the lower-cased text with spaces removed. -/
def linkMarkers : List String :=
  ["t.me/", "telegram.me/", "telegram.dog/", "wa.me/", "chat.whatsapp.com", "instagram.com/",
    "vk.com/", "vk.me/", "discord.gg/", "discord.com/invite", "snapchat.com/add",
    "onlyfans.com", "fansly.com"]

/-- What makes the mention of an app a push. -/
def pushEq : List String :=
  ["го", "go", "dm", "msg", "my", "мой", "моя", "мою", "мне", "есть", "me", "hmu"]

def pushPrefix : List String :=
  ["пиш", "напиш", "добав", "кинь", "кинеш", "скинь", "скинеш", "скинуть", "кинуть", "дай",
    "давай", "перейд", "переход", "ищи", "найд", "ник", "write", "add", "text", "messag",
    "find", "follow", "contact"]

/-- Clearly sexual words, exact tokens. -/
def explicitEq : List String :=
  ["пососи", "соси", "выебу", "выебать", "отымею", "вирт", "виртом", "виртик", "анал", "tits",
    "titties", "boobs", "boobies", "pussy", "cock", "cum", "cumming", "nudes", "slut", "sluts",
    "whore", "whores", "wank", "blowjob", "handjob"]

/-- Clearly sexual words, token prefixes. -/
def explicitPrefix : List String :=
  ["сиськ", "сисек", "сисечк", "письк", "писечк", "минет", "отсос", "дроч", "подроч", "нюдс",
    "шлюх", "трахн", "трахат", "трахал", "трахаю", "трахаеш", "раздевайс", "разденьс",
    "разденеш", "пенис", "вагин", "клитор", "анальн", "оргазм", "порн", "мастурб", "porn",
    "masturb", "sexting", "dildo"]

/-- With one of the next two lists within three words. -/
def showWords : List String :=
  ["покаж", "показывай", "show"]

def bodyPrefix : List String :=
  ["груд", "сиськ", "жоп", "попк", "попочк", "член", "письк", "киск", "трусик", "лифчик",
    "сосок", "tits", "boobs", "pussy", "dick", "cock", "nipple"]

def bodyEq : List String :=
  ["попу", "соски", "ass", "butt", "boobies"]

/-- Two-word phrases. -/
def explicitPairs : List (String × String) :=
  [("suck", "my"), ("jerk", "off"), ("get", "naked"), ("fuck", "me")]

/-- Only together with an age question or the mark of a minor. -/
def sexualPrefix : List String :=
  ["секс", "sex", "голая", "голую", "голой", "голые", "голеньк", "naked", "nude", "интим",
    "пошл", "возбужд", "трусик", "panties", "lingerie", "девствен", "virgin", "раздева",
    "разден", "horny"]

def sexualEq : List String :=
  ["трусы", "трусах"]

/-- Not enough for a remembered age question. -/
def mildPrefix : List String :=
  ["секс", "sex"]

/-- Age questions. -/
def howManyEq : List String :=
  ["сколько", "скока", "скоко", "скок", "ск", "скільки"]

def yearsEq : List String :=
  ["лет", "годиков", "годков", "років"]

def agePrefix : List String :=
  ["возраст", "совершеннолет", "несовершеннолет"]

def agePairs : List (String × String) :=
  [("how", "old"), ("what", "grade"), ("which", "grade")]

def ageWithEq : List String :=
  ["your", "ur", "you", "u", "what", "whats"]

/-- Marks of a minor. -/
def minorPrefix : List String :=
  ["школьниц", "школьник", "малолет", "несовершеннолет", "лоли", "loli", "underage", "teen",
    "шкільн"]

/-- Raw words that turn a nearby number into an age. -/
def ageUnitAfter : List String :=
  ["лет", "годиков", "год", "года", "годика", "years", "year", "yo", "yrs", "y"]

def ageWordBefore : List String :=
  ["мне", "im", "am", "m", "тебе", "ей", "ему"]

/-- Raw words that turn it into something else. -/
def notAgeAfter : List String :=
  ["минут", "мин", "секунд", "сек", "час", "часа", "часов", "км", "раз", "рублей", "руб", "min",
    "mins", "minutes", "hours", "hrs", "km", "times", "%"]

-- ======================================================================== folding

/-- A part of a text. -/
def hasPart (l part : Chars) : Bool := l.tails.any fun t => part.isPrefixOf t

section Fold

variable (T : CharTable)

/-- `fold_char`. -/
def foldChar (c : Char) : Char :=
  let l := T.toLower c
  if l = 'ё' then 'е' else l

/-- `is_cyr`. -/
def isCyr (c : Char) : Bool := 0x400 ≤ c.toNat && c.toNat ≤ 0x4FF

/-- `lat_to_cyr`. -/
def latToCyr : Char → Char
  | 'a' => 'а'
  | 'b' => 'в'
  | 'c' => 'с'
  | 'e' => 'е'
  | 'h' => 'н'
  | 'k' => 'к'
  | 'm' => 'м'
  | 'n' => 'п'
  | 'o' => 'о'
  | 'p' => 'р'
  | 'r' => 'г'
  | 't' => 'т'
  | 'u' => 'и'
  | 'x' => 'х'
  | 'y' => 'у'
  | '0' => 'о'
  | '3' => 'з'
  | '4' => 'ч'
  | '6' => 'б'
  | '@' => 'а'
  | c => c

/-- `cyr_or_leet_to_lat`. -/
def cyrOrLeetToLat : Char → Char
  | 'а' => 'a'
  | 'в' => 'b'
  | 'е' => 'e'
  | 'к' => 'k'
  | 'м' => 'm'
  | 'н' => 'h'
  | 'о' => 'o'
  | 'р' => 'p'
  | 'с' => 'c'
  | 'т' => 't'
  | 'у' => 'y'
  | 'х' => 'x'
  | '0' => 'o'
  | '1' => 'i'
  | '3' => 'e'
  | '4' => 'a'
  | '5' => 's'
  | '7' => 't'
  | '@' => 'a'
  | '$' => 's'
  | c => c

/-- Drop `_`, `$` and `@`, and a letter behind itself; `last` is what was kept last. -/
def squeeze (last : Option Char) : Chars → Chars
  | [] => []
  | c :: cs =>
      if c = '_' ∨ c = '$' ∨ c = '@' then squeeze last cs
      else if last = some c ∧ T.isAlphabetic c = true then squeeze last cs
      else c :: squeeze (some c) cs

/-- `fold_token`: the script is that of most letters. -/
def foldToken (raw : Chars) : Chars :=
  let cyr := raw.countP isCyr
  let lat := raw.countP Char.isAlpha
  squeeze T none
    (if 0 < cyr ∧ lat ≤ cyr then raw.map latToCyr
     else if 0 < lat then raw.map cyrOrLeetToLat
     else raw)

/-- `fold_text`. -/
def foldText (s : String) : Chars := s.toList.map (foldChar T)

/-- A listed word as it is looked for. -/
def foldWord (w : String) : Chars := foldToken T (foldText T w)

/-- What a token is made of. -/
def isTokenChar (c : Char) : Bool :=
  T.isAlphanumeric c || c = '_' || c = '@' || c = '$'

/-- The tokens of a folded text. -/
def split (l : Chars) : List Chars :=
  (l.splitOnP fun c => !isTokenChar T c).filter (· ≠ [])

end Fold

end ChatFilter

open ChatFilter

/-- `Text`. -/
structure ChatText where
  /-- folded, without white space -/
  nospace : Chars
  /-- folded -/
  lower : Chars
  /-- its tokens -/
  raw : List Chars
  /-- its tokens, folded -/
  toks : List Chars
  /-- these in one piece -/
  squashed : Chars

namespace ChatText

variable (T : CharTable)

/-- `Text::new`. -/
def new (body : String) : ChatText :=
  let lower := foldText T body
  let raw := split T lower
  let toks := (raw.map (foldToken T)).filter (· ≠ [])
  ⟨lower.filter fun c => !isWhite c, lower, raw, toks, toks.flatten⟩

variable (t : ChatText)

/-- `any_eq`. -/
def anyEq (words : List String) : Bool :=
  words.any fun w => t.toks.any fun tok => tok = foldWord T w

/-- `any_prefix`. -/
def anyPrefix (words : List String) : Bool :=
  words.any fun w => t.toks.any fun tok => (foldWord T w).isPrefixOf tok

/-- A token that begins with `a` in front of one that begins with `b`. -/
def pairIn (a b : Chars) : List Chars → Bool
  | x :: y :: toks => a.isPrefixOf x && b.isPrefixOf y || pairIn a b (y :: toks)
  | _ => false

/-- `pair`. -/
def pair (a b : String) : Bool := pairIn (foldToken T a.toList) (foldToken T b.toList) t.toks

/-- A token that passes one test with one that passes another not far behind it. -/
def nearIn (first later : Chars → Bool) (gap : Nat) : List Chars → Bool
  | [] => false
  | tok :: toks => first tok && (toks.take gap).any later || nearIn first later gap toks

/-- `near`. -/
def near (first thenPrefix thenEq : List String) (gap : Nat) : Bool :=
  nearIn (fun tok => first.any fun w => (foldWord T w).isPrefixOf tok)
    (fun tok => (thenPrefix.any fun w => (foldWord T w).isPrefixOf tok)
      || thenEq.any fun w => tok = foldWord T w) gap t.toks

-- ====================================================================== detectors

/-- `has_link`. -/
def hasLink : Bool := linkMarkers.any fun m => hasPart t.nospace m.toList

def isHandleChar (c : Char) : Bool := c.isAlphanum || c = '_'

/-- Search for a handle; `before` is the character in front. -/
def handleIn (before : Option Char) : Chars → Bool
  | [] => false
  | c :: cs =>
      (c = '@' && !before.any T.isAlphanumeric && 4 ≤ (cs.takeWhile isHandleChar).length)
        || handleIn (some c) cs

/-- `has_handle`. -/
def hasHandle : Bool := handleIn T none t.lower

/-- A dot that is not in front, and two letters or more behind the last one. -/
def isDomain (domain : Chars) : Bool :=
  let tld := (domain.reverse.takeWhile (· ≠ '.')).reverse
  '.' ∈ domain && tld.length + 1 < domain.length && 2 ≤ tld.length && tld.all Char.isAlpha

/-- Search for an address; `before` is the character in front. -/
def emailIn (before : Option Char) : Chars → Bool
  | [] => false
  | c :: cs =>
      (c = '@' && before.any Char.isAlphanum
          && isDomain (cs.takeWhile fun c => c.isAlphanum || c = '.' || c = '-'))
        || emailIn (some c) cs

/-- `has_email`. -/
def hasEmail : Bool := emailIn none t.lower

/-- Search for ten digits; `digits` have been seen in this run. -/
def phoneIn (digits : Nat) : Chars → Bool
  | [] => false
  | c :: cs =>
      if c.isDigit then 10 ≤ digits + 1 || phoneIn (digits + 1) cs
      else if c = ' ' ∨ c = '-' ∨ c = '(' ∨ c = ')' ∨ c = '+' then phoneIn digits cs
      else phoneIn 0 cs

/-- `has_phone`. -/
def hasPhone : Bool := phoneIn 0 t.lower

/-- `has_platform`. -/
def hasPlatform : Bool :=
  t.anyEq T platformEq || t.anyPrefix T platformPrefix
    || platformPairs.any fun p => t.pair T p.1 p.2

/-- `has_spaced_platform`. -/
def hasSpacedPlatform : Bool :=
  platformSquashed.any fun w => hasPart t.squashed (foldToken T w.toList)

/-- `has_handle_like_word`. -/
def hasHandleLikeWord : Bool :=
  t.raw.any fun w => 5 ≤ w.length && w.all isHandleChar && w.any Char.isAlpha
    && w.any fun c => c.isDigit || c = '_'

/-- `contact_rule`. -/
def contactRule : Option String :=
  if t.hasLink then some "link"
  else if t.hasEmail then some "email"
  else if t.hasHandle T then some "handle"
  else if t.hasPhone then some "phone"
  else if t.hasPlatform T then
    if t.toks.length ≤ 6 || '?' ∈ t.lower || t.anyEq T pushEq || t.anyPrefix T pushPrefix
        || t.hasHandleLikeWord then some "app"
    else none
  else if t.hasSpacedPlatform T then some "app_spaced"
  else none

/-- `explicit_rule`. -/
def explicitRule : Option String :=
  if t.anyEq T explicitEq || t.anyPrefix T explicitPrefix then some "explicit_word"
  else if t.near T showWords bodyPrefix bodyEq 3 then some "show_body"
  else if explicitPairs.any fun p => t.pair T p.1 p.2 then some "explicit_phrase"
  else none

/-- `sexual_soft`. -/
def sexualSoft : Bool := t.anyPrefix T sexualPrefix || t.anyEq T sexualEq

/-- `sexual_only_mild`. -/
def sexualOnlyMild : Bool :=
  let hits := t.toks.filter fun tok =>
    (sexualPrefix.any fun w => (foldToken T w.toList).isPrefixOf tok) || t.anyEq T sexualEq
  hits ≠ [] && hits.all fun tok =>
    mildPrefix.any fun w => (foldToken T w.toList).isPrefixOf tok

/-- `age_question`. -/
def ageQuestion : Bool :=
  (t.anyEq T howManyEq && t.anyEq T yearsEq) || t.anyPrefix T agePrefix
    || (agePairs.any fun p => t.pair T p.1 p.2)
    || (t.anyEq T ["age"] && t.anyEq T ageWithEq)
    || (t.anyPrefix T ["класс"] && t.anyEq T ["каком", "какой", "какому"])

/-- `minor_age_number`: a `u32` in decimal from 9 to 17. -/
def minorAgeNumber (s : Chars) : Bool :=
  let digits := match s with
    | '+' :: rest => rest
    | l => l
  let n := digits.foldl (fun n c => n * 10 + (c.toNat - '0'.toNat)) 0
  digits ≠ [] && digits.all Char.isDigit && 9 ≤ n && n ≤ 17

/-- Search for an age; `before` is the word in front. -/
def ageIn (before : Chars) : List Chars → Bool
  | [] => false
  | w :: ws =>
      (if minorAgeNumber w then
        let after := ws.headD []
        (ageUnitAfter.map String.toList).contains after
          || (ageWordBefore.map String.toList).contains before
            && !(notAgeAfter.map String.toList).contains after
      else
        let digits := w.takeWhile Char.isDigit
        digits ≠ [] && minorAgeNumber digits
          && (["yo", "y", "yrs", "лет", "л", "г"].map String.toList).contains
            (w.drop digits.length))
        || ageIn w ws

/-- `minor_marker`. -/
def minorMarker : Bool := t.anyPrefix T minorPrefix || ageIn [] t.raw

end ChatText

/-- `ChatCategory`. -/
inductive ChatCategory where
  | contactSwap
  | explicit
  | grooming
  deriving DecidableEq, Repr

/-- `ChatVerdict`. -/
structure ChatVerdict where
  category : Option ChatCategory
  rule : String
  ageContext : Bool
  deriving DecidableEq, Repr

/-- `classify`. -/
def classify (T : CharTable) (body : String) (ageContextRecent : Bool) : ChatVerdict :=
  let t := ChatText.new T body
  let minor := t.minorMarker T
  let ageNow := t.ageQuestion T || minor
  let explicit := t.explicitRule T
  let soft := t.sexualSoft T
  if (explicit.isSome || soft) && ageNow then
    ⟨some .grooming, if minor then "minor+sexual" else "age+sexual", true⟩
  else if ageContextRecent && (explicit.isSome || soft && !t.sexualOnlyMild T) then
    ⟨some .grooming, "age_earlier+sexual", false⟩
  else match explicit, t.contactRule T with
    | some rule, _ => ⟨some .explicit, rule, ageNow⟩
    | none, some rule => ⟨some .contactSwap, rule, ageNow⟩
    | none, none => ⟨none, "", ageNow⟩

end Ruletka
