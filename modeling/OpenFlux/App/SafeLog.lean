import OpenFlux.Algorithm.Regex
import OpenFlux.App.Utf8

/-!
# What is shown of a log line (`SafeLog.kt`)

The patterns are those of `java.util.regex`: `\s` stands for six ASCII characters, and `(?i)` only
takes the letters of ASCII for the same in both cases.  A text is a list of UTF-16 code units; the
only class that the two halves of a character make a difference to is that of the tags.
`lowercase(Locale.ROOT)`, which has the tables of Unicode, is a parameter.
-/

namespace OpenFlux.App.SafeLog

open Kotlin Kotlin.Utf16 Regex

abbrev Text := List UInt16

/-! ### Classes -/

def isDigit (u : UInt16) : Bool := 0x30 ≤ u && u ≤ 0x39

/-- `[A-Za-z0-9]` -/
def isAlphanumeric (u : UInt16) : Bool :=
  0x41 ≤ u && u ≤ 0x5A || 0x61 ≤ u && u ≤ 0x7A || isDigit u

/-- `[A-Fa-f0-9:.]` -/
def isAddress (u : UInt16) : Bool :=
  0x41 ≤ u && u ≤ 0x46 || 0x61 ≤ u && u ≤ 0x66 || isDigit u || u == 0x3A || u == 0x2E

/-- `\s` -/
def isBlank (u : UInt16) : Bool := u ∈ [0x09, 0x0A, 0x0B, 0x0C, 0x0D, 0x20]

/-- `[=:]` -/
def isSeparator (u : UInt16) : Bool := u == 0x3D || u == 0x3A

/-- A letter as `(?i)` compares it. -/
def lowercase (u : UInt16) : UInt16 := if 0x41 ≤ u && u ≤ 0x5A then u + 0x20 else u

/-! ### Patterns -/

/-- `(?<![A-Za-z0-9])[A-Fa-f0-9:.]{3,}:[0-9]{1,5}` -/
def address : Regex UInt16 :=
  chain [notBehind isAlphanumeric, many isAddress 3 none, one (· == 0x3A),
    many isDigit 1 (some 5)]

/-- `[0-9]{1,3}` -/
def number : Regex UInt16 := many isDigit 1 (some 3)

/-- `(?:[0-9]{1,3}\.){3}[0-9]{1,3}` -/
def numbers : Regex UInt16 :=
  chain [number, one (· == 0x2E), number, one (· == 0x2E), number, one (· == 0x2E), number]

/-- `(?<![A-Za-z0-9])(?:[0-9]{1,3}\.){3}[0-9]{1,3}(?![A-Za-z0-9])` -/
def ipv4 : Regex UInt16 := chain [notBehind isAlphanumeric, numbers, notAhead isAlphanumeric]

/-- A text, whatever the case of its letters. -/
def word (t : String) : Regex UInt16 := Regex.literal lowercase (units t)

/-- `\s*` -/
def blanks : Regex UInt16 := many isBlank 0 none

/-- `\S+` -/
def nonblanks : Regex UInt16 := many (fun u => !isBlank u) 1 none

/-- `password|token|secret|key|url` -/
def name : Regex UInt16 :=
  alt (word "password") (alt (word "token") (alt (word "secret") (alt (word "key") (word "url"))))

/-- `(?i)(password|token|secret|key|url)\s*[=:]\s*\S+` -/
def secret : Regex UInt16 := chain [group name, blanks, one isSeparator, blanks, nonblanks]

/-- `(?i)hysteria2(?:\+realm)?://\S+` -/
def hysteriaUri : Regex UInt16 :=
  chain [word "hysteria2", optional (word "+realm"), word "://", nonblanks]

/-- `[^]]`, a character in one code unit or in two. -/
def notBracket : Regex UInt16 :=
  alt (seq (one isHighSurrogate) (one isLowSurrogate))
    (alt (seq (one isHighSurrogate) (notAhead isLowSurrogate))
      (one fun u => !isHighSurrogate u && u != 0x5D))

/-- `\[[^]]{1,32}]` -/
def tag : Regex UInt16 :=
  chain [one (· == 0x5B), notBracket, upTo notBracket 31, one (· == 0x5D)]

/-- `\s+` -/
def space : Regex UInt16 := many isBlank 1 none

/-! ### `message` -/

/-- The first four steps of `sanitize`. -/
def mask (raw : Text) : Text :=
  let s := replace secret (fun m => m.groups.headD [] ++ units ": скрыто") raw
  let s := replace hysteriaUri (fun _ => units "Hysteria 2: скрыто") s
  let s := replace address (fun _ => units "адрес скрыт") s
  replace ipv4 (fun _ => units "IP скрыт") s

/-- The other three. -/
def tidy (s : Text) : Text :=
  Utf16.trim (replace space (fun _ => units " ") (replace tag (fun _ => []) s))

def sanitize (raw : Text) : Text := tidy (mask raw)

/-- What a branch of `message` shows: a text of its own, or so much of the line, with a text for a
blank one. -/
inductive Reply
  | text (t : String)
  | line (limit : ℕ) (blank : Option String)
  deriving DecidableEq

/-- The branch that `message` takes. -/
def reply (lower : Text) : Reply :=
  let has (t : String) : Bool := units t <:+: lower
  if has "captcha" then .text "Яндекс запросил CAPTCHA. Замените документ или IP сервера."
  else if has "hy2:" then .line 360 none
  else if has "hysteria 2 завершилась" then .line 140 none
  else if has "не удалось защитить udp-сокет hysteria" then
    .text "Hysteria 2 не получила доступ к сети устройства"
  else if has "hysteria 2 не передала udp-сокет" then
    .text "Hysteria 2 не передала сетевой сокет приложению"
  else if has "подключение восстановлено" then .text "Подключение восстановлено"
  else if has "восстанавли" then .text "Восстанавливаем соединение"
  else if has "vpn configured" then .text "VPN-интерфейс подготовлен"
  else if has "tun2socks running" then .text "Защищённый канал запущен"
  else if has "data path verified" then .text "Передача данных проверена"
  else if has "dns via tunnel" && (has "timed out" || has "failed") then
    .text "DNS ожидает восстановления канала"
  else if has "websocket" && (has "error" || has "1006") then .text "Транспорт переподключается"
  else if has "auth" && (has "fail" || has "error") then .text "Сервер отклонил авторизацию"
  else if has "timed out" || has "timeout" then .text "Сервер не ответил вовремя"
  else if has "failed" || has "fatal" || has "error" then
    .text "Не удалось выполнить сетевую операцию"
  else if has "socks5" && has "connect" then .text "Запрос передан через защищённый канал"
  else .line 140 (some "Состояние подключения обновлено")

def message (lower : Text → Text) (raw : Text) : Text :=
  match reply (lower raw) with
  | .text t => units t
  | .line limit none => (sanitize raw).take limit
  | .line limit (some blank) =>
    let line := (sanitize raw).take limit
    if line.all isWhitespace then units blank else line

end OpenFlux.App.SafeLog
