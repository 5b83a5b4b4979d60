import RawImport.Lib.Lua
import RawImport.Lib.ShellWords

/-!
# Commands of the Darktable plugin

`betterembeds.lua` talks to the API through `curl`, whose command line it puts
together with `string.format` and hands to the shell.
-/

namespace RawImport

namespace Plugin

open ShellWords

abbrev Text := List Char

/-- The header with the token of `api_token`. -/
def authHdr (token : Text) : Text :=
  if token = [] then []
  else " -H \"Authorization: Bearer ".toList ++ token ++ "\"".toList

/-- `%d` of a number that may be missing. -/
def decimal (number : Option Int) : Text :=
  (toString (number.getD 0)).toList

def postCommand (authHdr url body : Text) : Text :=
  "curl -s -o nul -w \"%\x7bhttp_code\x7d\" -X POST ".toList ++
    (authHdr ++ url) ++
    " -H \"Content-Type: application/json\" -d \"".toList ++
    (body ++ "\"".toList)

/-- The body of `notify_preview_updated`. -/
def notifyBody (dng worker : Text) (w h q : Option Int) : Text :=
  "\x7b\"output_path\":\"".toList ++
    (dng ++ "\",\"worker\":\"".toList ++ worker ++
      "\",\"preview_width\":".toList ++ decimal w ++
      ",\"preview_height\":".toList ++ decimal h ++
      ",\"preview_quality\":".toList ++ decimal q ++ "\x7d".toList)

/-- The command of `notify_preview_updated`. -/
def notifyPreviewUpdated (base token dng worker : Text)
    (w h q : Option Int) : Text :=
  postCommand (authHdr token)
    (base ++ "/api/v1/imports/by-path/preview-updated".toList)
    (notifyBody dng worker w h q)

/-- The path in the URL of `resolve_dng_via_api`. -/
def escapePath (sourcePath : Text) : Text :=
  Lua.gsub ' ' "%20".toList (Lua.gsub '"' "\\\"".toList sourcePath)

def resolveTarget (sourcePath : Text) : Text :=
  "/api/v1/imports/by-source?path=".toList ++ escapePath sourcePath

def resolveUrl (base sourcePath : Text) : Text :=
  base ++ resolveTarget sourcePath

/-- The command of `resolve_dng_via_api`. -/
def resolveDngViaApi (base token sourcePath : Text) : Text :=
  "curl -s ".toList ++ authHdr token ++ " \"".toList ++
    resolveUrl base sourcePath ++ "\"".toList

/-- What a configuration gives the plugin: an address without blanks and
quotes, a token without double quotes and backslashes. -/
structure Configured (base token : Text) : Prop where
  base : ∀ c ∈ base, Plain c
  token : ∀ c ∈ token, Quoted c

theorem feed_header :
    feed {} " -H \"Authorization: Bearer ".toList =
      ⟨.double, some "Authorization: Bearer ".toList, ["-H".toList]⟩ := by
  decide +kernel

/-- The header ends behind a quote, so its last word is still open. -/
theorem feed_authHdr {token : Text} (quoted : ∀ c ∈ token, Quoted c)
    (finished : List Text) :
    feed ⟨.plain, none, finished⟩ (authHdr token) =
      if token = [] then ⟨.plain, none, finished⟩
      else ⟨.plain, some ("Authorization: Bearer ".toList ++ token),
        finished ++ ["-H".toList]⟩ := by
  unfold authHdr
  split
  · rfl
  · rw [feed_append, feed_append, feed_between, feed_header]
    change feed (feed ⟨.double, some "Authorization: Bearer ".toList,
      finished ++ ["-H".toList]⟩ token) ['"'] = _
    rw [feed_double quoted]
    rfl

end Plugin

end RawImport
