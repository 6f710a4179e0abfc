/-
Module: Zigopt.Web.ContinueHref
Layer: Web
Purpose: The guard of the link that a page continues with (`net/continue.js`). It asks `jsuri` for the origin in the
  link, and a browser reads an origin in links in which `jsuri` sees none.
Main exports: JsUri, validateContinueHref, AppPage, StaysInApp, continue_stays_iff
-/
import Zigopt.Lib.UrlOrigin

namespace Zigopt.Web

open UrlOrigin

/-- The package `jsuri`: the parts of a text, and the text of a protocol, a host and a port. -/
structure JsUri where
  protocol : String → String
  host : String → String
  port : String → String
  text : (protocol host port : String) → String

/-- `ParsedUrl.origin`. -/
def ParsedUrl.origin (uri : JsUri) (url : String) : String :=
  uri.text (uri.protocol url) (uri.host url) (uri.port url)

/-- The link itself, or null. -/
def validateContinueHref (uri : JsUri) (appUrl continueHref : String) : Option String :=
  if continueHref = "" then
    some continueHref
  else if ParsedUrl.origin uri continueHref = "" then
    some continueHref
  else if ParsedUrl.origin uri continueHref = appUrl then
    some continueHref
  else
    none

/-- A page of the app, which is served over http or https. -/
structure AppPage where
  origin : UrlOrigin.Origin
  isWeb : IsWeb origin.scheme

/-- Where the link is returned, a browser reads the origin of the page in it. -/
def ContinuesInApp (uri : JsUri) (standard : Standard) (page : AppPage) (appUrl continueHref : String) : Prop :=
  ∀ value, validateContinueHref uri appUrl continueHref = some value →
    resolve standard page.origin value.toList = some page.origin

/-- An origin other than the app's is seen, or the link as a browser cleans it stays at the origin of the page. -/
def StaysInApp (uri : JsUri) (standard : Standard) (page : AppPage) (appUrl continueHref : String) : Prop :=
  (continueHref ≠ "" ∧ ParsedUrl.origin uri continueHref ≠ "" ∧ ParsedUrl.origin uri continueHref ≠ appUrl) ∨
    StaysAt standard page.origin (cleaned continueHref.toList)

theorem validateContinueHref_eq_some {uri : JsUri} {appUrl continueHref value : String} :
    validateContinueHref uri appUrl continueHref = some value ↔
      continueHref = value ∧ (continueHref = "" ∨ ParsedUrl.origin uri continueHref = "" ∨
        ParsedUrl.origin uri continueHref = appUrl) := by
  unfold validateContinueHref
  split
  · rename_i isEmpty
    simp [isEmpty]
  · split
    · rename_i noOrigin
      simp [noOrigin]
    · split
      · rename_i isApp
        simp [isApp]
      · rename_i notEmpty someOrigin notApp
        simp [notEmpty, someOrigin, notApp]

/-- For every link, and whatever `jsuri` sees in it: the link continues in the app exactly under this condition. -/
theorem continue_stays_iff (uri : JsUri) (standard : Standard) (page : AppPage) (appUrl continueHref : String) :
    ContinuesInApp uri standard page appUrl continueHref ↔ StaysInApp uri standard page appUrl continueHref := by
  have returned : ContinuesInApp uri standard page appUrl continueHref ↔
      ((continueHref = "" ∨ ParsedUrl.origin uri continueHref = "" ∨ ParsedUrl.origin uri continueHref = appUrl) →
        StaysAt standard page.origin (cleaned continueHref.toList)) := by
    simp only [ContinuesInApp, validateContinueHref_eq_some, resolve_eq_iff page.isWeb]
    constructor
    · intro continues seen
      exact continues continueHref ⟨rfl, seen⟩
    · rintro stays value ⟨rfl, seen⟩
      exact stays seen
  rw [returned, StaysInApp, imp_iff_not_or, not_or, not_or]

/-! ### A link that leaves -/

/-- What `jsuri` sees in a link, up to the rare forms of its expression: letters before a colon, two slashes,
    credentials, a host up to a colon, slash, question mark or hash. A backslash is an ordinary character. -/
def afterProtocol (url : List Char) : String × List Char :=
  let isStop := fun character => character ∈ [':', '/', '?', '#', '.']
  match url.takeWhile (fun character => !isStop character), url.dropWhile (fun character => !isStop character) with
  | first :: letters, ':' :: rest => (String.ofList (first :: letters), rest)
  | _, _ => ("", url)

def afterSlashes : List Char → List Char
  | '/' :: '/' :: rest => rest
  | rest => rest

/-- The host and the port of an authority. -/
def authorityParts (rest : List Char) : String × String :=
  let authority := rest.takeWhile fun character => !(character ∈ ['/', '?', '#'])
  let named := authority.rtakeWhile fun character => character ≠ '@'
  (String.ofList (named.takeWhile fun character => character ≠ ':'),
    String.ofList ((named.dropWhile fun character => character ≠ ':').drop 1))

def rfcUri : JsUri where
  protocol url := (afterProtocol url.toList).1
  host url := (authorityParts (afterSlashes (afterProtocol url.toList).2)).1
  port url := (authorityParts (afterSlashes (afterProtocol url.toList).2)).2
  text protocol host port :=
    let authority := if host = "" then "" else if port = "" then host else host ++ ":" ++ port
    if protocol = "" then authority else protocol ++ "://" ++ authority

/-- Hosts are read as they are written, in lower case. -/
def plainStandard : Standard where
  parseHost host := some (String.ofList (host.map Char.toLower))
  blobOrigin _ := none

def sigoptPage : AppPage where
  origin := ⟨"https", "sigopt.ninja", some 4443⟩
  isWeb := Or.inr rfl

/-- A backslash after the slash is a second slash for a browser, and a third slash is ignored. -/
theorem continue_leaves : ∃ continueHref,
    validateContinueHref rfcUri "https://sigopt.ninja:4443" continueHref = some continueHref ∧
      resolve plainStandard sigoptPage.origin continueHref.toList = some ⟨"https", "evil.com", none⟩ ∧
      ¬ContinuesInApp rfcUri plainStandard sigoptPage "https://sigopt.ninja:4443" continueHref := by
  have returned : validateContinueHref rfcUri "https://sigopt.ninja:4443" "/\\evil.com" = some "/\\evil.com" := by
    decide +kernel
  have leaves : resolve plainStandard sigoptPage.origin "/\\evil.com".toList = some ⟨"https", "evil.com", none⟩ := by
    decide +kernel
  refine ⟨"/\\evil.com", returned, leaves, ?_⟩
  intro continues
  have stays := continues _ returned
  rw [leaves] at stays
  exact absurd stays (by decide)

end Zigopt.Web
