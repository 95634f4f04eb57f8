import Counterpart.Block.Builtin
import Counterpart.Rule
import Counterpart.Rulebook

namespace Counterpart

def bracketLanguages : List String := [
  "c", "cpp", "csharp", "objective-c", "java", "kotlin", "scala", "groovy", "dart", "swift",
  "javascript", "javascriptreact", "typescript", "typescriptreact", "go", "rust", "php", "perl",
  "python", "json", "jsonc", "css", "scss", "less", "lisp", "scheme", "clojure", "sql", "latex",
  "cmake", "yaml", "html", "xml"]

namespace Rule

def shell : Rule := keywords "shell" Block.shell

def lua : Rule := keywords "lua" Block.lua

def ruby : Rule := keywords "ruby" Block.ruby

end Rule

namespace Rulebook

def standard : Rulebook Rule :=
  empty
    |>.registerAll bracketLanguages [Rule.delimiters]
    |>.register "shellscript" [Rule.shell, Rule.delimiters]
    |>.register "lua" [Rule.lua, Rule.delimiters]
    |>.register "ruby" [Rule.ruby, Rule.delimiters]

end Rulebook

end Counterpart
