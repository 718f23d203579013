import HomCircuit.Text.Hidden

/-!
# HomCircuit.Text.Quoted

A text between quotes, in which quotes, backslashes and characters that show nothing are escaped.

```
tab \t   line feed \n   carriage return \r   zero \0   any other hidden character \u{e9}
```

* `quotedChar` — one character;
* `quoted` — the quoted text.
-/

namespace HomCircuit.Text

/-- A character within quotes. -/
def quotedChar (c : Char) : List Char :=
  if c = '\t' then ['\\', 't']
  else if c = '\n' then ['\\', 'n']
  else if c = '\r' then ['\\', 'r']
  else if c = '\x00' then ['\\', '0']
  else if c = '"' ∨ c = '\\' then ['\\', c]
  else if isHidden c then ['\\', 'u', '\x7b'] ++ Nat.toDigits 16 c.toNat ++ ['\x7d']
  else [c]

/-- A text between quotes. -/
def quoted (s : String) : String := String.ofList ('"' :: s.toList.flatMap quotedChar ++ ['"'])

end HomCircuit.Text
