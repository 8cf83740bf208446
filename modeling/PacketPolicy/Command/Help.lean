import PacketPolicy.Command.Line

namespace PacketPolicy

def Flag.purpose (topic : Topic) : Flag → String
  | .debug => "enable debug mode"
  | .logLevel =>
    "logging level; one of [trace, debug, info, warning, error, fatal] (default \"info\")"
  | .help => "help for " ++ topic.name
  | .config => "path to the aclgen config file"
  | .definitions => "directory of network and service definitions"
  | .policy => "policy file or directory, may be repeated"
  | .output => "directory to write rendered filters to"
  | .expInfo => "weeks before expiration to report expiring terms (default 2)"
  | .platform => "only render these platforms"
  | .dryRun => "log the changes without making them"
  | .chain => "link the filters from this chain instead of the header's"
  | .defaultAction => "override the default action of built-in chains"
  | .file => "already rendered .ipt files, used instead of policies"
  | .noDescriptions => "disable completion descriptions"

namespace Topic

def summary : Topic → String
  | .program => "Generate firewall rules from network policies"
  | .command .apply => "Apply rendered iptables filters to this host"
  | .command .completion => "Generate the autocompletion script for the specified shell"
  | .command .help => "Help about any command"
  | .command .inspect => "Show the terms of policies as a table"
  | .command .render => "Render policies into filter files"
  | .command .revert => "Remove the rules and chains of rendered iptables filters from this host"
  | .completion s => "Generate the autocompletion script for " ++ s.name

def scriptDescription : Shell → List String
  | .bash => [
    "Generate the autocompletion script for the bash shell.",
    "",
    "This script depends on the 'bash-completion' package.",
    "If it is not installed already, you can install it via your OS's package manager.",
    "",
    "To load completions in your current shell session:",
    "",
    "\tsource <(aclgen completion bash)",
    "",
    "To load completions for every new session, execute once:",
    "",
    "#### Linux:",
    "",
    "\taclgen completion bash > /etc/bash_completion.d/aclgen",
    "",
    "#### macOS:",
    "",
    "\taclgen completion bash > $(brew --prefix)/etc/bash_completion.d/aclgen",
    "",
    "You will need to start a new shell for this setup to take effect."]
  | .fish => [
    "Generate the autocompletion script for the fish shell.",
    "",
    "To load completions in your current shell session:",
    "",
    "\taclgen completion fish | source",
    "",
    "To load completions for every new session, execute once:",
    "",
    "\taclgen completion fish > ~/.config/fish/completions/aclgen.fish",
    "",
    "You will need to start a new shell for this setup to take effect."]
  | .powershell => [
    "Generate the autocompletion script for powershell.",
    "",
    "To load completions in your current shell session:",
    "",
    "\taclgen completion powershell | Out-String | Invoke-Expression",
    "",
    "To load completions for every new session, add the output of the above command",
    "to your powershell profile."]
  | .zsh => [
    "Generate the autocompletion script for the zsh shell.",
    "",
    "If shell completion is not already enabled in your environment you will need",
    "to enable it.  You can execute the following once:",
    "",
    "\techo \"autoload -U compinit; compinit\" >> ~/.zshrc",
    "",
    "To load completions in your current shell session:",
    "",
    "\tsource <(aclgen completion zsh)",
    "",
    "To load completions for every new session, execute once:",
    "",
    "#### Linux:",
    "",
    "\taclgen completion zsh > \"$\x7bfpath[1]\x7d/_aclgen\"",
    "",
    "#### macOS:",
    "",
    "\taclgen completion zsh > $(brew --prefix)/share/zsh/site-functions/_aclgen",
    "",
    "You will need to start a new shell for this setup to take effect."]

def description : Topic → List String
  | .program =>
    ["aclgen compiles vendor-neutral network policies into iptables and Windows IPsec rule text"]
  | .command .render =>
    ["Render every policy for each platform its headers target, writing one file per policy and platform"]
  | .command .help => [
    "Help provides help for any command in the application.",
    "Simply type aclgen help [path to command] for full details."]
  | .command .completion => [
    "Generate the autocompletion script for aclgen for the specified shell.",
    "See each sub-command's help for details on how to use the generated script."]
  | .completion s => scriptDescription s
  | t => [t.summary]

def subtopics : Topic → List Topic
  | .program => Command.all.map .command
  | .command .completion => Shell.all.map .completion
  | _ => []

def call : Topic → String
  | .command .help => path (.command .help) ++ " [command] [flags]"
  | .completion .bash => path (.completion .bash)
  | t => t.path ++ " [flags]"

def nameColumns : Nat := 11

def padded (width : Nat) (s : String) : String :=
  s ++ String.ofList (List.replicate (width - s.length) ' ')

def flagHead (f : Flag) : String :=
  (match f.letter? with
    | some c => "  -" ++ String.singleton c ++ ", --"
    | none => "      --")
    ++ f.name ++ ((f.valueWord?.map fun word => " " ++ word).getD "")

def flagLines (t : Topic) (flags : List Flag) : List String :=
  let flags := flags.mergeSort fun f g => f.name ≤ g.name
  let width := flags.foldl (fun width f => max width (flagHead f).length) 0
  flags.map fun f => padded width (flagHead f) ++ "   " ++ f.purpose t

def usageSections (t : Topic) : List (List String) :=
  let leads := !t.subtopics.isEmpty
  ["Usage:" :: (if t.runs then ["  " ++ t.call] else [])
    ++ (if leads then ["  " ++ t.path ++ " [command]"] else [])]
    ++ (if leads then ["Available Commands:" :: t.subtopics.map fun s =>
        "  " ++ padded nameColumns s.name ++ " " ++ s.summary] else [])
    ++ (if t == .program then ["Flags:" :: flagLines t t.flags]
      else ["Flags:" :: flagLines t t.ownFlags, "Global Flags:" :: flagLines t Flag.shared])
    ++ (if leads then [["Use \"" ++ t.path
      ++ " [command] --help\" for more information about a command."]] else [])

def sectionText (sections : List (List String)) : String :=
  String.intercalate "\n\n" (sections.map (String.intercalate "\n")) ++ "\n"

def usage (t : Topic) : String :=
  sectionText t.usageSections

def help (t : Topic) : String :=
  sectionText (t.description :: t.usageSections)

def quotedWord (word : String) : String :=
  if word.toList.all fun c => c == '\t'
    || (0x20 ≤ c.toNat && c != '\x60' && c != '\x7f' && c != '\ufeff') then
    "\x60" ++ word ++ "\x60"
  else Text.quote word

def unknownHelp (words : List String) : String :=
  "Unknown help topic [" ++ String.intercalate " " (words.map quotedWord) ++ "]\n" ++ usage .program

end Topic
end PacketPolicy
