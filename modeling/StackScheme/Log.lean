/-! What the stages report about their work, apart from its result. -/
namespace StackScheme

inductive Level
  | debug
  | info
deriving DecidableEq

def Level.name : Level → String
  | .debug => "DEBUG"
  | .info => "INFO"

structure LogRecord where
  level : Level
  text : String
deriving DecidableEq

end StackScheme
