/-!
What the program says of itself: its version, and its usage in a short and a
long form.
-/

namespace ScriptLexer.CommandLine

def versionText : String := "glox 0.1.0\n"

def shortHelp : String :=
"A lexical scanner for the glox scripting language

Usage: glox [OPTIONS] [SCRIPT]

Arguments:
  [SCRIPT]  Script to scan (omit for the interactive prompt)

Options:
      --dump-tokens      Print the token listing for the script
      --format <FORMAT>  Token listing format [default: text] [possible values: text, json]
      --fancy            Render diagnostics with source labels
  -h, --help             Print help (see more with '--help')
  -V, --version          Print version
"

def longHelp : String :=
"A lexical scanner for the glox scripting language

Usage: glox [OPTIONS] [SCRIPT]

Arguments:
  [SCRIPT]
          Script to scan (omit for the interactive prompt)

Options:
      --dump-tokens
          Print the token listing for the script

      --format <FORMAT>
          Token listing format

          Possible values:
          - text: One token per line
          - json: Pretty-printed JSON array
          \n          [default: text]

      --fancy
          Render diagnostics with source labels

  -h, --help
          Print help (see a summary with '-h')

  -V, --version
          Print version
"

end ScriptLexer.CommandLine
