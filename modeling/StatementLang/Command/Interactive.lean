import StatementLang.Command.Effect
import StatementLang.Repl.Input
import StatementLang.Repl.Session

/-!
# Interactive sessions as a command

A session reads its input until it ends or a line asks to quit.
-/

namespace StatementLang

def bannerText : Bytes := utf8 "xpres interactive session
Type .help for commands, .quit to exit

"

namespace Context

def replyErr (c : Context) (r : Reply) : Bytes := c.logger.writeAll r.records ++ r.err

/-- Feeds inputs to a session, and returns what it writes. -/
def converse (c : Context) : List SessionInput → Session → Bytes × Bytes
  | [], _ => ([], [])
  | .bell :: rest, s =>
    let (out, err) := c.converse rest s
    (7 :: out, err)
  | .interrupt :: rest, s => c.converse rest s.cancel
  | .line text :: rest, s =>
    let (r, s) := s.handle c.colored text
    if r.quit then (r.out, c.replyErr r)
    else
      let (out, err) := c.converse rest s
      (r.out ++ out, c.replyErr r ++ err)

def interact (c : Context) (w : World) : Effect :=
  let (out, err) := c.converse (sessionInputs w.input) Session.fresh
  ⟨bannerText ++ out, err, w.files, none⟩

end Context

end StatementLang
