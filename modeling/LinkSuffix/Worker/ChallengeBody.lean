import LinkSuffix.Js.Case
import LinkSuffix.Js.RegExp

/-!
# Challenges in a body

What the text of a main document says about a challenge (`challengeEvidence.ts`, `signatures.ts`).

* `stripped`: the text without its comments and its scripts, styles and templates.
* `interstitial`: what identifies a challenge that is running. `gateText`: the heading or the lead of
  a page that asks for a verification.
* `activeBodyChallenge`.
-/

namespace LinkSuffix.ChallengeBody

open Lib RegExp

/-! ## Signatures -/

inductive SignatureName
  | cloudflare | hcaptcha | datadome | perimeterx | akamai | kasada | shape | fingerprintjs | generic
  deriving DecidableEq

/-- `DEFAULT_SIGNATURES[name].body`. -/
def bodySignatures : SignatureName → List String
  | .cloudflare =>
    ["cf-chl-bypass", "cf-challenge", "/cdn-cgi/challenge-platform/", "cf-captcha-container"]
  | .hcaptcha => ["h-captcha", "hcaptcha.com", "<div class=\"h-captcha\""]
  | .datadome => ["datadome", "geo.captcha-delivery.com", "captcha-delivery.com"]
  | .perimeterx =>
    ["px-captcha", "client.perimeterx.net", "captcha.px-cdn.net", "press and hold", "_pxhd",
      "perimeterx"]
  | .akamai => ["akamai bot manager", "_abck"]
  | .generic => ["access denied", "forbidden", "rate limit exceeded"]
  | .kasada =>
    ["kasada", "/149e9513-01fa-4fb0-aad4-566af076c2c2/2c206d82-1a6e-41e5-8f3a-d2b1c844d78d",
      "sbid.js", "/149e9513-", "client.js", "tp_"]
  | .shape => ["shape.security", "shape-fp", "experience-check", "/___shape_fp/"]
  | .fingerprintjs => ["fingerprintjs", "fingerprintjs.com", "/v3/fp/", "visitorid"]

/-- `signatureMatches`, of a text with the signatures of a body. -/
def signatureMatches (bodySnippet : List Char) (name : SignatureName) : Bool :=
  (bodySignatures name).any fun signature =>
    (toLowerCase bodySnippet).tails.any (signature.toList.isPrefixOf ·)

inductive EvidenceReason
  | cloudflareInterstitial | perimeterxInterstitial | datadomeInterstitial
  | verificationInterstitialText
  deriving DecidableEq

structure ActiveChallengeEvidence where
  vendor : SignatureName
  reason : EvidenceReason
  deriving DecidableEq

/-! ## Elements -/

/-- `[^>]`. -/
def inTag (c : Char) : Bool := c != '>'

/-- `<name\b[^>]*>`. -/
def opening (name : String) : Pattern Char :=
  .chain [literal "<", word name, boundary, .many inTag, literal ">"]

/-- `<\/name\s*>`. -/
def closing (name : String) : Pattern Char :=
  .chain [literal "</", word name, spaces, literal ">"]

/-- `[\s\S]*?`. -/
def anything : Pattern Char := .few fun _ => true

/-- `<name\b[^>]*>[\s\S]*?(?:<\/name\s*>|$)`. -/
def element (name : String) : Pattern Char :=
  .chain [opening name, anything, .alt (closing name) finish]

/-- `<!--[\s\S]*?(?:-->|$)`. -/
def comment : Pattern Char := .chain [literal "<!--", anything, .alt (literal "-->") finish]

/-- The elements whose content is not part of the page. -/
def inert : List String := ["script", "style", "template"]

/-- The text without its comments. -/
def uncommented (text : List Char) : List Char := comment.replaceAll [] text

/-- `html`. -/
def stripped (text : List Char) : List Char :=
  (Pattern.oneOf (inert.map element)).replaceAll [] (uncommented text)

/-! ## Texts -/

/-- `\s+`. -/
def blanks : Pattern Char := .seq (.one isJsSpace) spaces

/-- The words, with blanks between them. -/
def phrase (words : List (Pattern Char)) : Pattern Char := .chain (words.intersperse blanks)

/-- A pattern and blanks, or nothing. -/
def optional (pattern : Pattern Char) : Pattern Char := .maybe (.seq pattern blanks)

/-- `gateHeading`. -/
def gateHeading : Pattern Char :=
  .seq start (.oneOf [
    .chain [optional (word "please"), .oneOf [word "verify", word "confirm"], blanks,
      .oneOf [
        .chain [optional (word "that"), word "you",
          .oneOf [word "'re", .seq blanks (word "are")]],
        phrase [word "your", .oneOf [word "identity", word "browser"]]]],
    .chain [word "are", blanks, word "you", blanks, optional (word "a"),
      .oneOf [word "human", word "robot"]],
    phrase [word "robot", word "or", word "human"],
    .seq (phrase [word "just", word "a", word "moment"]) boundary,
    .seq (phrase [word "attention", word "required"]) boundary,
    .seq (phrase [word "access", word "denied"]) boundary,
    .seq (phrase [word "request", .oneOf [word "blocked", word "unsuccessful"]]) boundary,
    .seq (phrase [word "you", word "have", word "been", word "blocked"]) boundary,
    .seq (phrase [.oneOf [word "security", word "human", word "browser"],
      .oneOf [word "check", word "verification"]]) boundary,
    phrase [word "checking", .oneOf [phrase [word "your", word "browser"],
      phrase [word "if", .oneOf [phrase [word "the", word "site", word "connection"],
        phrase [word "you", word "are"]]]]],
    .chain [.oneOf [word "complete", word "solve"], blanks, optional (word "the"),
      .oneOf [word "captcha", phrase [word "security", word "check"]]],
    .seq (phrase [word "press", .oneOf [word "and", word "&"], word "hold"]) boundary])

/-- `textOnly`. -/
def textOnly (html : List Char) : List Char :=
  let text := (Pattern.chain [literal "<", .many inTag, literal ">"]).replaceAll [' '] html
  let text := (Pattern.chain [word "&", .oneOf [word "nbsp", word "#160"], word ";"]).replaceAll
    [' '] text
  let text := (word "&amp;").replaceAll ['&'] text
  let text := (Pattern.oneOf [.chain [word "&#", .oneOf [word "39", word "x27"], word ";"],
    word "&apos;"]).replaceAll ['\x27'] text
  (trim (String.ofList (blanks.replaceAll [' '] text))).toList

/-- The contents of the elements of these names, `skip` characters after the last one. -/
def contentsFrom (names : List String) : Option Char → Nat → List Char → List (List Char)
  | _, _, [] => []
  | _, skip + 1, c :: cs => contentsFrom names (some c) skip cs
  | prev, 0, c :: cs =>
    let found := names.findSome? fun name =>
      ((opening name).matchAt (prev, c :: cs)).bind fun content =>
        ((closing name).searchFrom content.1 content.2).map (content, ·)
    match found with
    | some (content, close, rest) =>
      Pattern.between content close :: contentsFrom names (some c) (cs.length - rest.2.length) cs
    | none => contentsFrom names (some c) 0 cs

/-- `headings`. -/
def headings (html : List Char) : List (List Char) :=
  (contentsFrom ["title", "h1"] none 0 html).map textOnly

/-- `lead`. -/
def lead (html : List Char) : List Char :=
  sliceChars 300 (textOnly ((element "head").replaceAll [] html))

/-- A heading or the lead of the page asks for a verification. -/
def gateText (html : List Char) : Bool := (headings html ++ [lead html]).any gateHeading.test

/-! ## The verdict -/

/-- `["']`. -/
def quote : Pattern Char := .one fun c => c == '\x22' || c == '\x27'

/-- `\b(?:window\.)?_cf_chl_opt\s*=`. -/
def assignment : Pattern Char :=
  .chain [boundary, .maybe (literal "window."), literal "_cf_chl_opt", spaces, literal "="]

/-- `\bid\s*=\s*["'](?:…)["']`. -/
def identified (ids : List String) : Pattern Char :=
  .chain [boundary, word "id", spaces, word "=", spaces, quote, .oneOf (ids.map word), quote]

/-- `<iframe\b[^>]*\bsrc\s*=\s*["']https:\/\/(?:[a-z0-9-]+\.)?captcha-delivery\.com\/captcha\/`. -/
def captchaFrame : Pattern Char :=
  let letter : Char → Bool := fun c => c.isAlphanum || c == '-'
  .chain [word "<iframe", boundary, .many inTag, boundary, word "src", spaces, word "=", spaces,
    quote, word "https://", .maybe (.chain [.one letter, .many letter, word "."]),
    word "captcha-delivery.com/captcha/"]

/-- What identifies a challenge that is running, apart from an assignment to `_cf_chl_opt`. -/
def interstitial (html : List Char) (names : List SignatureName) :
    Option ActiveChallengeEvidence :=
  if .cloudflare ∈ names ∧
      (identified ["cf-challenge-running", "cf-captcha-container"]).test html then
    some ⟨.cloudflare, .cloudflareInterstitial⟩
  else if .perimeterx ∈ names ∧ (identified ["px-captcha"]).test html then
    some ⟨.perimeterx, .perimeterxInterstitial⟩
  else if .datadome ∈ names ∧ captchaFrame.test html then
    some ⟨.datadome, .datadomeInterstitial⟩
  else none

/-- The evidence of a gate. -/
def gateEvidence (raw : List Char) (names : List SignatureName) :
    Option ActiveChallengeEvidence :=
  match names.find? (signatureMatches raw) with
  | some vendor => some ⟨vendor, .verificationInterstitialText⟩
  | none => if .generic ∈ names then some ⟨.generic, .verificationInterstitialText⟩ else none

/-- `activeBodyChallenge`. -/
def activeBodyChallenge (bodySnippet : List Char) (names : List SignatureName) :
    Option ActiveChallengeEvidence :=
  let raw := sliceChars 65536 bodySnippet
  let html := stripped raw
  if .cloudflare ∈ names ∧ assignment.test raw then some ⟨.cloudflare, .cloudflareInterstitial⟩
  else
    (interstitial html names).or (if gateText html then gateEvidence raw names else none)

end LinkSuffix.ChallengeBody
