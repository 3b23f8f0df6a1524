import LanguageService.Json.Value
/-! Errors that are reported to the other side of a connection. -/
namespace LanguageService

structure Refusal where
  code : Int
  message : Json
  data : Json := .null

namespace Refusal

def ofText (code : Int) (message : Text) : Refusal := { code, message := .text message }

def parseError : Int := -32700

def invalidRequest : Int := -32600

def methodNotFound : Int := -32601

def internalError : Int := -32603

def toJson (r : Refusal) : Json :=
  .object (("code", .int r.code) :: ("message", r.message) ::
    if r.data.isNull then [] else [("data", r.data)])

end Refusal
end LanguageService
