/-
Telling the language of a file from its name.

A file belongs to a language because of its whole name or because of the suffix
of its name. `Language.ofPath?` tries the whole name first; suffixes are compared
in small letters.
-/
import SourceNotes.Language.Table
import SourceNotes.Path

namespace SourceNotes.Language

/-- How the files of a language are called. -/
structure FileNames where
  language : String
  suffixes : List String := []
  wholeNames : List String := []

/-- The file names of each language. -/
def fileNames : List FileNames :=
  [{ language := "Assembly", suffixes := [".asm", ".a51", ".i", ".inc", ".nasm"] },
   { language := "C", suffixes := [".c", ".h"] },
   { language := "C#", suffixes := [".cs", ".csx", ".cake"] },
   { language := "C++"
     suffixes := [".cpp", ".cc", ".cxx", ".c++", ".hpp", ".hh", ".hxx", ".h++", ".ino",
       ".ipp", ".tcc", ".tpp"] },
   { language := "Clojure", suffixes := [".clj", ".cljc", ".cljs", ".cljx", ".edn"] },
   { language := "CoffeeScript"
     suffixes := [".coffee", ".cson", ".iced"]
     wholeNames := ["Cakefile"] },
   { language := "Dockerfile"
     suffixes := [".dockerfile"]
     wholeNames := ["Dockerfile", "Containerfile"] },
   { language := "Emacs Lisp", suffixes := [".el"], wholeNames := [".emacs", "_emacs"] },
   { language := "Erlang"
     suffixes := [".erl", ".hrl", ".escript", ".xrl", ".yrl"]
     wholeNames := ["rebar.config"] },
   { language := "Fortran", suffixes := [".f", ".f77", ".for", ".fpp"] },
   { language := "Fortran Free Form", suffixes := [".f90", ".f03", ".f08", ".f95"] },
   { language := "Go", suffixes := [".go"] },
   { language := "Go Module", wholeNames := ["go.mod"] },
   { language := "Groovy"
     suffixes := [".groovy", ".gradle", ".grt", ".gtpl", ".gvy"]
     wholeNames := ["Jenkinsfile"] },
   { language := "HTML", suffixes := [".html", ".htm", ".xht", ".xhtml"] },
   { language := "Haskell", suffixes := [".hs", ".hs-boot", ".hsc"] },
   { language := "JSON"
     suffixes := [".json", ".jsonc", ".json5", ".webmanifest", ".har"]
     wholeNames := [".babelrc", ".eslintrc.json", "tsconfig.json", "jsconfig.json"] },
   { language := "Java", suffixes := [".java", ".jav"] },
   { language := "JavaScript", suffixes := [".js", ".jsx", ".mjs", ".cjs"] },
   { language := "Kotlin", suffixes := [".kt", ".ktm", ".kts"] },
   { language := "Lua", suffixes := [".lua", ".rockspec"] },
   { language := "MATLAB", suffixes := [".matlab"] },
   { language := "Makefile"
     suffixes := [".mk", ".mak", ".make"]
     wholeNames := ["Makefile", "makefile", "GNUmakefile", "BSDmakefile"] },
   { language := "Objective-C", suffixes := [".m"] },
   { language := "PHP"
     suffixes := [".php", ".phtml", ".php3", ".php4", ".php5", ".phps", ".phpt"] },
   { language := "Perl", suffixes := [".pl", ".pm", ".t", ".cgi", ".psgi"] },
   { language := "PowerShell", suffixes := [".ps1", ".psd1", ".psm1"] },
   { language := "Puppet", suffixes := [".pp"], wholeNames := ["Modulefile"] },
   { language := "Python"
     suffixes := [".py", ".pyi", ".pyw", ".gyp", ".bzl"]
     wholeNames := ["BUILD", "WORKSPACE", "SConstruct"] },
   { language := "R", suffixes := [".r", ".rd", ".rsx"], wholeNames := [".Rprofile"] },
   { language := "Ruby"
     suffixes := [".rb", ".rake", ".gemspec", ".rbw", ".ru"]
     wholeNames := ["Gemfile", "Rakefile", "Vagrantfile", "Podfile"] },
   { language := "Rust", suffixes := [".rs"] },
   { language := "SQL", suffixes := [".sql", ".ddl", ".prc", ".tab", ".udf", ".viw"] },
   { language := "Scala", suffixes := [".scala", ".sbt", ".sc"] },
   { language := "Shell"
     suffixes := [".sh", ".bash", ".zsh", ".ksh", ".bats", ".command"]
     wholeNames := [".bashrc", ".bash_profile", ".profile", ".zshrc"] },
   { language := "Swift", suffixes := [".swift"] },
   { language := "TOML"
     suffixes := [".toml"]
     wholeNames := ["Cargo.lock", "Pipfile", "poetry.lock"] },
   { language := "TeX", suffixes := [".tex", ".sty", ".cls", ".ltx", ".dtx", ".ins"] },
   { language := "TypeScript", suffixes := [".ts", ".tsx", ".cts", ".mts"] },
   { language := "Unix Assembly", suffixes := [".s", ".ms"] },
   { language := "VBA", suffixes := [".bas", ".frm", ".vba"] },
   { language := "Vim Script"
     suffixes := [".vim", ".vmb"]
     wholeNames := [".vimrc", "_vimrc", ".gvimrc"] },
   { language := "Visual Basic .NET", suffixes := [".vb", ".vbhtml"] },
   { language := "XML"
     suffixes := [".xml", ".xsd", ".xsl", ".xslt", ".svg", ".plist", ".csproj", ".pom",
       ".wsdl", ".xaml"]
     wholeNames := ["pom.xml", ".classpath", ".project"] },
   { language := "YAML"
     suffixes := [".yml", ".yaml"]
     wholeNames := [".clang-format", ".clang-tidy"] }]

/-- A character in small letters, as far as suffixes can tell: the Kelvin sign is
a capital letter too. -/
def smallLetter (c : Char) : Char := if c = '\u212a' then 'k' else c.toLower

/-- The language of a file with this path. -/
def ofPath? (path : Text) : Option String :=
  let p := Path.ofText path
  let name := String.ofList p.name
  let suffix := String.ofList (p.suffix.map smallLetter)
  ((fileNames.find? fun f => f.wholeNames.contains name).or
    (fileNames.find? fun f => f.suffixes.contains suffix)).map (·.language)

end SourceNotes.Language
