import Mathlib
import SereinGateway.Lib.Search

/-!
`LogSanitizer`: what is logged has secrets replaced, by rules that are applied
one after the other to the whole text.

A rule is an expression and what its matches are replaced by. Only the rule for
keys and values captures a group, the keyword, and there it comes first.
-/

namespace SereinGateway.Core

open SereinGateway.Lib

structure SanitizationRule where
  /-- The group of the pattern, or the empty expression. -/
  group : Regex Char
  rest : Regex Char
  replacement : List Char → List Char
  nonempty : (Regex.seq group rest).mayBeEmpty = false

def SanitizationRule.finder (rule : SanitizationRule) : Finder Char (List Char × List Char) :=
  Regex.groupFinder rule.group rule.rest rule.nonempty

def SanitizationRule.replaceAll (rule : SanitizationRule) (s : List Char) : List Char :=
  rule.finder.replaceAll (fun m => rule.replacement m.1) s

/-- `[^&\s]` -/
def queryChar (c : Char) : Bool := !(c == '&' || isWhitespace c)

/-- `\?key=[^&\s]+` -/
def apiKeyQuery : SanitizationRule where
  group := .epsilon
  rest := .seq (.literal "?key=") (.atLeast queryChar 1)
  replacement _ := "?key=[REDACTED]".toList
  nonempty := by rfl

/-- `[A-Za-z0-9\-._~+/]` without regard to case. -/
def tokenChar (c : Char) : Bool :=
  foldedLetter c || c.isDigit || c == '-' || c == '.' || c == '_' || c == '~' || c == '+' ||
    c == '/'

/-- `(?i)Bearer\s+[A-Za-z0-9\-._~+/]+=*` -/
def bearerToken : SanitizationRule where
  group := .epsilon
  rest := .seq (.folded "bearer") (.seq (.atLeast isWhitespace 1)
    (.seq (.atLeast tokenChar 1) (.many (· == '='))))
  replacement _ := "Bearer [REDACTED]".toList
  nonempty := by rfl

/-- `api[_-]?key|token|secret|password|auth[_-]?token|access[_-]?key|private[_-]?key` -/
def keyword : Regex Char :=
  let joined (a b : String) : Regex Char :=
    .seq (.folded a) (.seq (.optional (.one fun c => c == '_' || c == '-')) (.folded b))
  .alt (joined "api" "key") (.alt (.folded "token") (.alt (.folded "secret")
    (.alt (.folded "password") (.alt (joined "auth" "token") (.alt (joined "access" "key")
      (joined "private" "key"))))))

/-- `["\s:=]` -/
def separatorChar (c : Char) : Bool := c == '"' || isWhitespace c || c == ':' || c == '='

/-- `[^\s"{},]` -/
def valueChar (c : Char) : Bool :=
  !(isWhitespace c || c == '"' || c == '\x7b' || c == '\x7d' || c == ',')

/-- `(?mi)(api[_-]?key|…)["\s:=]+[^\s"{},]{8,}` -/
def sensitiveKeyValue : SanitizationRule where
  group := keyword
  rest := .seq (.atLeast separatorChar 1) (.atLeast valueChar 8)
  replacement key := key ++ "=[REDACTED]".toList
  nonempty := by rfl

/-- `[a-zA-Z0-9._%+-]+@[a-zA-Z0-9.-]+\.[a-zA-Z]{2,}` -/
def emailAddress : SanitizationRule where
  group := .epsilon
  rest :=
    let user c := c.isAlphanum || c == '.' || c == '_' || c == '%' || c == '+' || c == '-'
    let domain c := c.isAlphanum || c == '.' || c == '-'
    .seq (.atLeast user 1) (.seq (.one (· == '@')) (.seq (.atLeast domain 1)
      (.seq (.one (· == '.')) (.atLeast Char.isAlpha 2))))
  replacement _ := "[EMAIL_REDACTED]".toList
  nonempty := by rfl

def sanitizationRules : List SanitizationRule :=
  [apiKeyQuery, bearerToken, sensitiveKeyValue, emailAddress]

/-- `\b\d{1,3}\.\d{1,3}\.\d{1,3}\.\d{1,3}\b` -/
def ipv4Address (cls : CharClasses) : SanitizationRule where
  group := .epsilon
  rest :=
    let octet : Regex Char := .alt (.times (.one cls.digit) 3) (.alt (.times (.one cls.digit) 2)
      (.times (.one cls.digit) 1))
    let dot : Regex Char := .one (· == '.')
    .seq (.boundary cls.word) (.seq octet (.seq dot (.seq octet (.seq dot (.seq octet (.seq dot
      (.seq octet (.boundary cls.word))))))))
  replacement _ := "[IP_REDACTED]".toList
  nonempty := by rfl

structure LogSanitizer where
  maskIpv4 : Bool

def LogSanitizer.sanitizeChars (sanitizer : LogSanitizer) (cls : CharClasses) (input : List Char) :
    List Char :=
  let result := sanitizationRules.foldl (fun result rule => rule.replaceAll result) input
  if sanitizer.maskIpv4 then (ipv4Address cls).replaceAll result else result

def LogSanitizer.sanitize (sanitizer : LogSanitizer) (cls : CharClasses) (input : String) :
    String :=
  .ofList (sanitizer.sanitizeChars cls input.toList)

end SereinGateway.Core
