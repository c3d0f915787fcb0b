/-!
# Built-in patterns

Patterns that every workspace starts from, by category. The name of the ignore file follows them,
so that the file itself is never synchronized.
-/

namespace PathSieve.Builtin

set_option autoImplicit false

inductive Category
  | vcsAndSystem
  | dependenciesAndBuild
  | ideSettings
  | secrets
  | logsTempAndCache
  deriving DecidableEq, Inhabited

namespace Category

def all : List Category :=
  [.vcsAndSystem, .dependenciesAndBuild, .ideSettings, .secrets, .logsTempAndCache]

def name : Category → String
  | .vcsAndSystem => "VcsAndSystem"
  | .dependenciesAndBuild => "DependenciesAndBuild"
  | .ideSettings => "IdeSettings"
  | .secrets => "Secrets"
  | .logsTempAndCache => "LogsTempAndCache"

def patterns : Category → List String
  | .vcsAndSystem =>
    [".git/", ".svn/", ".hg/", ".DS_Store", "Thumbs.db", "desktop.ini", "*.swp", "*.swo", "*~"]
  | .dependenciesAndBuild =>
    ["node_modules/", "bower_components/", "__pycache__/", "*.pyc", ".venv/", "venv/", "build/",
      "dist/", "target/", ".next/", ".nuxt/", ".turbo/"]
  | .ideSettings => [".idea/", ".vscode/", "*.iml"]
  | .secrets => [".env*", "!.env.example"]
  | .logsTempAndCache => ["*.log", "*.tmp", "*.temp", ".cache/"]

end Category

def patterns : List String := Category.all.flatMap Category.patterns

def patternsWith (fileName : String) : List String := patterns ++ [fileName]

end PathSieve.Builtin
