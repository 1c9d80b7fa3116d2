/-!
Scripts that let a command shell complete the addresses on the command line of this program. They
list the addresses of the first word that names a file, and leave all other words to a function
`_attrsh`.
-/

namespace AttributeShell.CommandLine

inductive CommandShell where
  | bash
  | zsh
  | fish
  deriving Repr, DecidableEq

namespace CommandShell

def name : CommandShell → String
  | bash => "bash"
  | zsh => "zsh"
  | fish => "fish"

def all : List CommandShell := [bash, zsh, fish]

/-- The shell of a name, in small or capital letters. No letter outside of ASCII is a capital form
of one in these names. -/
def ofName? (name : String) : Option CommandShell :=
  all.find? (·.name.toList == name.toList.map Char.toLower)

def bashScript : String := "\n".intercalate
  [ "",
    "# Resource addresses from the schema snapshot given on the command line",
    "_attrsh_list_addresses() \x7b",
    "    local word",
    "    for word in \"$\x7bCOMP_WORDS[@]:1\x7d\"; do",
    "        if [[ -f \"$word\" ]]; then",
    "            attrsh \"$word\" addresses 2>/dev/null",
    "            return",
    "        fi",
    "    done",
    "\x7d",
    "",
    "_attrsh_enhanced() \x7b",
    "    local cur prev words cword",
    "    _init_completion || return",
    "",
    "    if [[ \"$prev\" == \"-a\" || \"$prev\" == \"--address\" ]]; then",
    "        COMPREPLY=($(compgen -W \"$(_attrsh_list_addresses)\" -- \"$cur\"))",
    "        return 0",
    "    fi",
    "",
    "    # Fall back to default completion",
    "    _attrsh \"$@\"",
    "\x7d",
    "",
    "complete -F _attrsh_enhanced attrsh",
    "" ]

def zshScript : String := "\n".intercalate
  [ "",
    "# Resource addresses from the schema snapshot given on the command line",
    "_attrsh_addresses() \x7b",
    "    local -a addresses",
    "    local word",
    "    for word in $\x7bwords[2,-1]\x7d; do",
    "        if [[ -f \"$word\" ]]; then",
    "            addresses=($\x7b(f)\"$(attrsh \"$word\" addresses 2>/dev/null)\"\x7d)",
    "            break",
    "        fi",
    "    done",
    "    compadd -a addresses",
    "\x7d",
    "",
    "_attrsh_enhanced() \x7b",
    "    if [[ $\x7bwords[CURRENT-1]\x7d == \"-a\" || " ++
      "$\x7bwords[CURRENT-1]\x7d == \"--address\" ]]; then",
    "        _attrsh_addresses",
    "        return 0",
    "    fi",
    "",
    "    _attrsh \"$@\"",
    "\x7d",
    "",
    "compdef _attrsh_enhanced attrsh",
    "" ]

def fishScript : String := "\n".intercalate
  [ "",
    "# Resource addresses from the schema snapshot given on the command line",
    "function __attrsh_list_addresses",
    "    for word in (commandline -opc)[2..-1]",
    "        if test -f \"$word\"",
    "            attrsh \"$word\" addresses 2>/dev/null",
    "            return",
    "        end",
    "    end",
    "end",
    "",
    "complete -c attrsh -s a -l address -f -a \"(__attrsh_list_addresses)\" " ++
      "-d \"Resource address from the schema snapshot\"",
    "" ]

def script : CommandShell → String
  | bash => bashScript
  | zsh => zshScript
  | fish => fishScript

end CommandShell

end AttributeShell.CommandLine
