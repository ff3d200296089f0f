import LinkSuffix.Js.Value

/-!
# URLs

The fields of a parsed URL. The parser itself is the platform's, a parameter of what reads URLs.

* `Url`, `UrlParser`: what `new URL(…)` gives, with and without a base.
* `Platform`: the parser and the clock.
-/

namespace LinkSuffix

/-- A `URL`. -/
structure Url where
  href : String
  /-- `href` once `hash` is emptied. -/
  withoutHash : String
  origin : String
  protocol : String
  username : String := ""
  password : String := ""
  hostname : String
  pathname : String
  search : String
  deriving DecidableEq

/-- `protocol` is one of the web. -/
def Url.isWeb (url : Url) : Bool := url.protocol ∈ ["http:", "https:"]

/-- `new URL(raw)` and `new URL(raw, base)`, where they do not throw. -/
structure UrlParser where
  parse : String → Option Url
  parseFrom : String → String → Option Url

namespace UrlParser

variable (P : UrlParser)

/-- `new URL(raw)` of any value. -/
def parseValue (raw : JsValue) : Option Url := P.parse raw.toText

/-- `new URL(location, base)` of a text and any value. -/
def resolve (location : String) (base : JsValue) : Option Url :=
  match base with
  | .undefined => P.parse location
  | base => P.parseFrom location base.toText

end UrlParser

/-- The parser, `Date.now()` and `Date.parse`. -/
structure Platform extends UrlParser where
  now : Int
  dateParse : String → JsNumber

section Sample

/-- The parser on a tracker and a shop. -/
def trackerPlatform : Platform where
  parse := read
  parseFrom raw _ := read raw
  now := 0
  dateParse _ := .nan
where
  read (raw : String) : Option Url :=
    if raw = "https://tracker.example/start" then
      some {
        href := "https://tracker.example/start", withoutHash := "https://tracker.example/start"
        origin := "https://tracker.example", protocol := "https:", hostname := "tracker.example"
        pathname := "/start", search := "" }
    else if raw = "https://shop.example/?irclickid=7" then
      some {
        href := "https://shop.example/?irclickid=7"
        withoutHash := "https://shop.example/?irclickid=7", origin := "https://shop.example"
        protocol := "https:", hostname := "shop.example", pathname := "/"
        search := "?irclickid=7" }
    else none

end Sample

end LinkSuffix
