import Harusali.SignUp.Screen
import Harusali.App.Screens
import Harusali.App.Relaunch
import Harusali.App.Users
import Harusali.Client.Draining
import Harusali.Device.Guarantees
import Harusali.Storage.DiskRuns
