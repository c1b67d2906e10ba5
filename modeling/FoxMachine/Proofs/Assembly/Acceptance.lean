import FoxMachine.Proofs.Assembly.Words
import FoxMachine.Proofs.Token.Source

namespace FoxMachine

namespace Assembly

variable {source : String} {fault : SourceFault}

variable {earlier later : List Place} {place : Place}

end Assembly

end FoxMachine
