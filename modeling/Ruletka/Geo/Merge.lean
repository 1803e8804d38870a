/-
Where a peer is: what several providers say of an address, put together.

`applyOrgCityHints` looks for a city in the texts the providers add and moves
their weights; `mergeHits` takes a weighted vote on the country code and then
one on the city. The votes stand in hash maps, so the order of their
iteration is a parameter. Case and letters beyond ASCII are as Unicode has
them, and that is a parameter too.
-/
import Ruletka.Lib.Text
import Ruletka.Lib.Vote

namespace Ruletka.Geo

/-- Resolved approximate location. -/
structure GeoLoc where
  code : String
  country : String
  city : String
  region : String
  deriving DecidableEq, Repr

/-- What one provider says. -/
structure ProviderHit where
  weight : UInt8
  code : String
  country : String
  city : String
  region : String
  /-- organisation, provider and host names -/
  hintBlob : String
  deriving DecidableEq, Repr

/-- `str::to_lowercase` and `char::is_alphanumeric`. -/
structure CityTables where
  toLowercase : String → String
  isAlphanumeric : Char → Bool

-- ======================================================================= the texts

def cleanPlace (raw : String) : String := Text.takeChars 64 (Text.trim raw)

/-- `split_whitespace` and `join(" ")`. -/
def joinWords (s : List Char) : String :=
  String.ofList ([' '].intercalate ((s.splitOnP Text.isWhite).filter (· ≠ [])))

/-- Cities that differ in case and punctuation alone have one key. -/
def cityKey (T : CityTables) (s : String) : String :=
  joinWords ((T.toLowercase (Text.trim s)).toList.filter fun c =>
    T.isAlphanumeric c || Text.isWhite c || c == '-')

/-- Site codes and names of cities. -/
def hintPairs : List (String × String) :=
  [("CLGRAB", "Calgary"), ("CLGR", "Calgary"), ("CALGARY", "Calgary"), ("EDMNAB", "Edmonton"),
    ("EDMONTON", "Edmonton"), ("VANCBC", "Vancouver"), ("VANCOUVER", "Vancouver"),
    ("TRNTO", "Toronto"), ("TORONTO", "Toronto"), ("MTRLPQ", "Montreal"),
    ("MONTREAL", "Montreal"), ("OTTWA", "Ottawa"), ("OTTAWA", "Ottawa"), ("WPGMB", "Winnipeg"),
    ("WINNIPEG", "Winnipeg"), ("REGNSK", "Regina"), ("SASKATOON", "Saskatoon"),
    ("HFXNS", "Halifax"), ("HALIFAX", "Halifax")]

def hintCityFromBlob (blob : String) : Option String :=
  (hintPairs.find? fun p => Text.hasInfix (Text.upper blob) p.1).map (·.2)

/-- The texts of all hits. -/
def joinedBlob (hits : List ProviderHit) : String := " ".intercalate (hits.map (·.hintBlob))

-- ======================================================================= the hints

/-- `u8::saturating_add`. -/
def satAdd (w n : UInt8) : UInt8 := if w.toNat + n.toNat < 256 then w + n else 255

/-- `u8::saturating_sub`. -/
def satSub (w n : UInt8) : UInt8 := if n ≤ w then w - n else 0

/-- What a hint makes of a hit. -/
def hintHit (T : CityTables) (hintCity : String) (h : ProviderHit) : ProviderHit :=
  let hk := cityKey T hintCity
  if h.city ≠ "" ∧ cityKey T h.city = hk then { h with weight := satAdd h.weight 2 }
  else if h.city = "" then { h with city := hintCity, weight := satAdd h.weight 1 }
  else if cityKey T h.city ≠ hk then { h with weight := max (satSub h.weight 1) 1 }
  else h

def applyOrgCityHints (T : CityTables) (hits : List ProviderHit) : List ProviderHit :=
  match hintCityFromBlob (joinedBlob hits) with
  | none => hits
  | some hintCity => hits.map (hintHit T hintCity)

-- ======================================================================= the votes

/-- `u32` addition of a weight, as release builds wrap it. -/
def addWeight (votes : Nat) (h : ProviderHit) : Nat := (votes + h.weight.toNat) % 2 ^ 32

/-- The code a hit votes for: only one of two bytes counts. -/
def codeVote (h : ProviderHit) : Option String :=
  if h.code.utf8ByteSize = 2 then some h.code else none

def codeVotes (hits : List ProviderHit) : Table String Nat :=
  tally codeVote (fun v h => addWeight (v.getD 0) h) hits

/-- A field of the heaviest hit of a country that has it. -/
def heaviest (field : ProviderHit → String) (code : String) (hits : List ProviderHit) :
    Option String :=
  (lastMax (·.weight.toNat) (hits.filter fun h => h.code = code ∧ field h ≠ "")).map field

/-- The key of the city a hit votes for in a country. -/
def cityVote (T : CityTables) (code : String) (h : ProviderHit) : Option String :=
  let city := cleanPlace h.city
  if h.code ≠ code ∨ city = "" then none
  else if cityKey T city = "" then none
  else some (cityKey T city)

/-- A vote for a city; the form shown is that of the last hit of some weight,
or of the first one. -/
def countCity (v : Option (Nat × String)) (h : ProviderHit) : Nat × String :=
  let city := cleanPlace h.city
  let e := v.getD (0, city)
  (addWeight e.1 h, if 2 ≤ h.weight then city else e.2)

def cityVotes (T : CityTables) (code : String) (hits : List ProviderHit) :
    Table String (Nat × String) :=
  tally (cityVote T code) countCity hits

/-- `merge_hits`, with the orders in which the two maps are iterated. -/
def mergeHits (T : CityTables) (codes cities : IterOrder String) (hits : List ProviderHit) :
    Option GeoLoc := do
  let (code, _) ← lastMax (·.2) ((codeVotes hits).iterate codes)
  guard (code.utf8ByteSize = 2)
  let country := (heaviest (·.country) code hits).getD code
  let region := (heaviest (·.region) code hits).getD ""
  let city := ((lastMax (·.2.1) ((cityVotes T code hits).iterate cities)).map (·.2.2)).getD ""
  let city := if city = "" then (hintCityFromBlob (joinedBlob hits)).getD "" else city
  return { code, country, city, region }

/-- The hint pass and the vote. -/
def locate (T : CityTables) (codes cities : IterOrder String) (hits : List ProviderHit) :
    Option GeoLoc :=
  mergeHits T codes cities (applyOrgCityHints T hits)

end Ruletka.Geo
